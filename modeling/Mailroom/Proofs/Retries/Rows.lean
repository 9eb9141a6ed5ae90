import Mailroom.Proofs.Retries.Batches
import Mailroom.Proofs.Table
/-!
What a batch does to tables of rows, one part after another.

Both stores keep their rows in a table by place, and differ in what a row is. A reset stamps the
rows with some numbers unless they have been stamped already (`resetRows`), a removal keeps the
others (`keptRows`) and of the contents those that they have (`keptContents`). Each of them may be
done in two parts.
-/

namespace Mailroom

variable {ρ : Type} {rows : Table Place ρ} {mailbox : MailboxId} {part more other : List Uid}
  {uid : Uid} {place : Place}

/-- Whether a batch on some numbers of a mailbox leaves a place alone. -/
def isApart (mailbox : MailboxId) (part : List Uid) (place : Place) : Bool :=
  !(place.mailbox = mailbox && part.contains place.uid)

theorem isApart_nil : isApart mailbox [] place = true := by
  simp [isApart]

theorem isApart_append : isApart mailbox (part ++ more) place
    = (isApart mailbox part place && isApart mailbox more place) := by
  unfold isApart
  rw [List.contains_append]
  cases decide (place.mailbox = mailbox) <;> simp

theorem isApart_congr (same : ∀ uid, uid ∈ part ↔ uid ∈ other) :
    isApart mailbox part = isApart mailbox other := by
  funext place
  have contained : part.contains place.uid = other.contains place.uid := by
    rw [Bool.eq_iff_iff, List.contains_iff_mem, List.contains_iff_mem, same]
  rw [isApart, contained]
  rfl

theorem isApart_of_not_mem (apart : uid ∉ part) : isApart mailbox part ⟨mailbox, uid⟩ = true := by
  simp [isApart, apart]

/-! ### Answers -/

/-- What is gathered of numbers of which each has at most one answer. -/
theorem gather_lists {τ : Type} [BatchOutcome (List τ)] {f : Uid → Option τ}
    (empty : BatchOutcome.empty = ([] : List τ))
    (append : ∀ found more : List τ, BatchOutcome.append found more = found ++ more) :
    gather (fun uid => (f uid).toList) part = part.filterMap f := by
  induction part with
  | nil => exact empty
  | cons uid rest ih =>
    show BatchOutcome.append (f uid).toList (gather _ rest) = _
    rw [append, ih, List.filterMap_cons]
    cases f uid <;> rfl

theorem gather_toList {f : Uid → Option Metadata} :
    gather (fun uid => (f uid).toList) part = part.filterMap f := gather_lists rfl fun _ _ => rfl

/-! ### Resetting -/

section Resets

variable (isDone : ρ → Bool) (stamp : ρ → ρ) (tell : Place → ρ → Metadata)

/-- Stamps the rows with some numbers. -/
def resetRows (mailbox : MailboxId) (part : List Uid) (rows : Table Place ρ) : Table Place ρ :=
  rows.mapValues fun place row =>
    if isApart mailbox part place || isDone row then row else stamp row

/-- The numbers of the rows that a reset stamps. -/
def unsettled (mailbox : MailboxId) (rows : Table Place ρ) (part : List Uid) : List Uid :=
  part.filter fun uid => (rows.get? ⟨mailbox, uid⟩).any (!isDone ·)

/-- What a reset answers of one number. -/
def resetOne (mailbox : MailboxId) (rows : Table Place ρ) (uid : Uid) : RecentReset :=
  match rows.get? ⟨mailbox, uid⟩ with
  | none => { missing := [uid] }
  | some row =>
    if isDone row then { alreadyApplied := [uid] } else { updated := [tell ⟨mailbox, uid⟩ row] }

variable {isDone stamp tell}

theorem resetRows_nil : resetRows isDone stamp mailbox [] rows = rows := by
  refine Table.ext_get? fun place => ?_
  rw [resetRows, Table.get?_mapValues]
  cases rows.get? place <;> simp [isApart_nil]

/-- Rows that have been stamped are not stamped again. -/
theorem resetRows_resetRows (done : ∀ row, isDone (stamp row) = true) :
    resetRows isDone stamp mailbox more (resetRows isDone stamp mailbox part rows)
      = resetRows isDone stamp mailbox (part ++ more) rows := by
  unfold resetRows
  rw [Table.mapValues_mapValues]
  refine Table.mapValues_congr fun entry _ => ?_
  simp only [isApart_append]
  by_cases settled : isDone entry.2 = true
  · simp [settled]
  · by_cases first : isApart mailbox part entry.1 = true
    · simp [first, settled]
    · simp [first, settled, done]

theorem get?_resetRows_of_not_mem (apart : uid ∉ part) :
    (resetRows isDone stamp mailbox part rows).get? ⟨mailbox, uid⟩ = rows.get? ⟨mailbox, uid⟩ := by
  rw [resetRows, Table.get?_mapValues]
  cases rows.get? ⟨mailbox, uid⟩ <;> simp [isApart_of_not_mem apart]

/-- Every number is told of once. -/
theorem uids_resetOne (here : ∀ row, rows.get? ⟨mailbox, uid⟩ = some row →
      (tell ⟨mailbox, uid⟩ row).uid = uid) :
    (BatchOutcome.report (resetOne isDone tell mailbox rows uid)).uids = [uid] := by
  unfold resetOne
  cases found : rows.get? ⟨mailbox, uid⟩ with
  | none => rfl
  | some row =>
    dsimp only
    split
    · rfl
    · exact congrArg (fun uid => [uid]) (here row found)

/-- What a reset answers, sorted by what has become of the numbers. -/
theorem gather_resetOne : gather (resetOne isDone tell mailbox rows) part =
    { updated := (unsettled isDone mailbox rows part).filterMap fun uid =>
        (rows.get? ⟨mailbox, uid⟩).map (tell ⟨mailbox, uid⟩)
      alreadyApplied := part.filter fun uid => (rows.get? ⟨mailbox, uid⟩).any isDone
      missing := part.filter fun uid => (rows.get? ⟨mailbox, uid⟩).isNone } := by
  induction part with
  | nil => rfl
  | cons uid rest ih =>
    show RecentReset.append (resetOne isDone tell mailbox rows uid) (gather _ rest) = _
    rw [ih, resetOne, RecentReset.append, unsettled, unsettled]
    cases found : rows.get? ⟨mailbox, uid⟩ with
    | none => simp [found]
    | some row => cases settled : isDone row <;> simp [found, settled]

theorem mem_unsettled {row : ρ} (found : rows.get? ⟨mailbox, uid⟩ = some row) :
    uid ∈ unsettled isDone mailbox rows part ↔ uid ∈ part ∧ isDone row = false := by
  rw [unsettled, List.mem_filter, found, Option.any_some, Bool.not_eq_true']

/-- A reset stamps the rows that it finds unsettled, and no other. -/
theorem resetRows_eq {f : Place → ρ → ρ}
    (stamps : ∀ place row, rows.get? place = some row → f place row =
      if place.mailbox = mailbox ∧ place.uid ∈ unsettled isDone mailbox rows part then stamp row
      else row) :
    rows.mapValues f = resetRows isDone stamp mailbox part rows := by
  refine Table.mapValues_congr fun entry member => ?_
  obtain ⟨⟨inMailbox, uid⟩, row⟩ := entry
  have found := Table.get?_eq_some_iff.mpr member
  rw [stamps _ _ found]
  by_cases here : inMailbox = mailbox
  · subst here
    simp only [mem_unsettled found, true_and, isApart, decide_true, Bool.true_and]
    by_cases named : uid ∈ part <;> cases isDone row <;> simp [named]
  · simp [isApart, here]

end Resets

/-! ### Removing -/

/-- The rows at places that are kept. -/
def keptRows (keep : Place → Bool) (rows : Table Place ρ) : Table Place ρ :=
  rows.filter fun place _ => keep place

/-- The contents that are kept with some rows: all but those that only rows have that go. -/
def keptContents {κ : Type} (has : ρ → MessageId → Bool) (keep : Place → Bool)
    (rows : Table Place ρ) (contents : Table MessageId κ) : Table MessageId κ :=
  contents.filter fun id _ =>
    !((rows.filter fun place _ => !keep place).values.any (has · id)) ||
      (keptRows keep rows).values.any (has · id)

section Removals

variable {κ : Type} {has : ρ → MessageId → Bool} {keep other : Place → Bool}
  {contents : Table MessageId κ}

theorem any_filter {keep : Place → ρ → Bool} {test : ρ → Bool} :
    (rows.filter keep).values.any test = true ↔
      ∃ entry ∈ rows.entries, keep entry.1 entry.2 = true ∧ test entry.2 = true := by
  simp only [Table.values, Table.entries_filter, List.any_map, List.any_filter, List.any_eq_true,
    Function.comp_apply, Bool.and_eq_true]

theorem keptRows_keptRows : keptRows other (keptRows keep rows)
    = keptRows (fun place => keep place && other place) rows := Table.filter_filter

/-- Removing rows in two parts removes the same contents. -/
theorem keptContents_keptContents :
    keptContents has other (keptRows keep rows) (keptContents has keep rows contents)
      = keptContents has (fun place => keep place && other place) rows contents := by
  unfold keptContents
  rw [Table.filter_filter]
  refine Table.filter_congr fun entry _ => ?_
  rw [keptRows_keptRows, Bool.eq_iff_iff]
  simp only [Bool.and_eq_true, Bool.or_eq_true, Bool.not_eq_true', Bool.eq_false_iff, ne_eq,
    keptRows, any_filter, Table.filter_filter]
  grind

theorem get?_keptRows_of_not_mem (apart : uid ∉ part) :
    (keptRows (isApart mailbox part) rows).get? ⟨mailbox, uid⟩ = rows.get? ⟨mailbox, uid⟩ := by
  rw [keptRows, Table.get?_filter]
  cases rows.get? ⟨mailbox, uid⟩ <;> simp [isApart_of_not_mem apart]

theorem get?_keptRows_of_mem (named : uid ∈ part) :
    (keptRows (isApart mailbox part) rows).get? ⟨mailbox, uid⟩ = none := by
  rw [keptRows, Table.get?_filter]
  cases rows.get? ⟨mailbox, uid⟩ <;> simp [isApart, named]

theorem keptRows_all (all : ∀ entry ∈ rows.entries, keep entry.1 = true) :
    keptRows keep rows = rows := Table.filter_eq_self all

theorem keptContents_all (all : ∀ entry ∈ rows.entries, keep entry.1 = true) :
    keptContents has keep rows contents = contents := by
  refine Table.filter_eq_self fun _ _ => ?_
  rw [Bool.or_eq_true, Bool.not_eq_true', Bool.eq_false_iff, Ne, any_filter]
  refine .inl ?_
  rintro ⟨entry, member, dropped, -⟩
  rw [all entry member] at dropped
  cases dropped

end Removals

end Mailroom
