import Mailroom.Memory.Store
import Mailroom.Proofs.Table
/-!
Clearing the recent flag of rows in memory.

`missing`, `settled` and `pending` sort the numbers of a reset by what their rows say. A reset whose
numbers are each given once changes the rows with pending numbers, as if all at once, and answers
with the three lists (`resetEach_eq`).
-/

namespace Mailroom.Memory

variable {m : Store}

/-! ### What becomes of the numbers -/

section Numbers

variable (rows : Table Place Message) (mailbox : MailboxId) (modSeq : ModSeq) (uids : List Uid)

/-- The numbers without a row. -/
def missing : List Uid := uids.filter fun uid => (rows.get? ⟨mailbox, uid⟩).isNone

/-- The numbers of the rows that have a modification sequence. -/
def settled : List Uid :=
  uids.filter fun uid => (rows.get? ⟨mailbox, uid⟩).any fun row => row.modSeq = modSeq

/-- The numbers of the rows that have another modification sequence. -/
def pending : List Uid :=
  uids.filter fun uid => (rows.get? ⟨mailbox, uid⟩).any fun row => row.modSeq ≠ modSeq

/-- The rows with some numbers, in the order of the numbers. -/
def rowsAt : List Message := uids.filterMap fun uid => rows.get? ⟨mailbox, uid⟩

end Numbers

/-- A row without the recent flag, under a new modification sequence. -/
def reset (modSeq : ModSeq) (row : Message) : Message :=
  { row with flags := row.flags.set .recent false, modSeq }

/-- Resets the rows with some numbers. -/
def resetAt (mailbox : MailboxId) (modSeq : ModSeq) (uids : List Uid) (place : Place)
    (row : Message) : Message :=
  if place.mailbox = mailbox ∧ place.uid ∈ uids then reset modSeq row else row

/-- A store in memory after the rows with some numbers were reset. -/
def resetStore (m : Store) (mailbox : MailboxId) (modSeq : ModSeq) (uids : List Uid) :
    Store :=
  { m with rows := m.rows.mapValues (resetAt mailbox modSeq uids) }

variable {rows : Table Place Message} {mailbox : MailboxId} {modSeq : ModSeq} {uids : List Uid}
  {uid : Uid}

theorem mem_pending :
    uid ∈ pending rows mailbox modSeq uids ↔
      uid ∈ uids ∧ ∃ row, rows.get? ⟨mailbox, uid⟩ = some row ∧ row.modSeq ≠ modSeq := by
  rw [pending, List.mem_filter, Option.any_eq_true]
  simp only [decide_eq_true_eq]

theorem pending_ascending (ascending : uids.Pairwise (· < ·)) :
    (pending rows mailbox modSeq uids).Pairwise (· < ·) := ascending.filter _

/-- What becomes of a number depends on its own row only. -/
theorem missing_congr {other : Table Place Message}
    (same : ∀ uid ∈ uids, rows.get? ⟨mailbox, uid⟩ = other.get? ⟨mailbox, uid⟩) :
    missing rows mailbox uids = missing other mailbox uids :=
  List.filter_congr fun uid member => by rw [same uid member]

theorem settled_congr {other : Table Place Message}
    (same : ∀ uid ∈ uids, rows.get? ⟨mailbox, uid⟩ = other.get? ⟨mailbox, uid⟩) :
    settled rows mailbox modSeq uids = settled other mailbox modSeq uids :=
  List.filter_congr fun uid member => by rw [same uid member]

theorem pending_congr {other : Table Place Message}
    (same : ∀ uid ∈ uids, rows.get? ⟨mailbox, uid⟩ = other.get? ⟨mailbox, uid⟩) :
    pending rows mailbox modSeq uids = pending other mailbox modSeq uids :=
  List.filter_congr fun uid member => by rw [same uid member]

theorem rowsAt_congr {other : Table Place Message}
    (same : ∀ uid ∈ uids, rows.get? ⟨mailbox, uid⟩ = other.get? ⟨mailbox, uid⟩) :
    rowsAt rows mailbox uids = rowsAt other mailbox uids := by
  induction uids with
  | nil => rfl
  | cons uid rest ih =>
    have rest_same := ih fun uid member => same uid (List.mem_cons_of_mem _ member)
    unfold rowsAt at rest_same ⊢
    rw [List.filterMap_cons, List.filterMap_cons, same uid List.mem_cons_self, rest_same]

/-- Resetting no row changes none. -/
theorem mapValues_resetAt_nil : rows.mapValues (resetAt mailbox modSeq []) = rows := by
  apply Table.ext_get?
  intro place
  rw [Table.get?_mapValues]
  cases rows.get? place <;> simp [resetAt]

theorem resetStore_nil : resetStore m mailbox modSeq [] = m := by
  rw [resetStore, mapValues_resetAt_nil]

/-- The rows that are reset, as they are after that. -/
theorem rowsAt_resetAt {part : List Uid} (among : ∀ uid ∈ part, uid ∈ uids) :
    rowsAt (rows.mapValues (resetAt mailbox modSeq uids)) mailbox part
      = (rowsAt rows mailbox part).map (reset modSeq) := by
  induction part with
  | nil => rfl
  | cons uid rest ih =>
    have rest_reset := ih fun uid member => among uid (List.mem_cons_of_mem _ member)
    unfold rowsAt at rest_reset ⊢
    rw [List.filterMap_cons, List.filterMap_cons, rest_reset, Table.get?_mapValues]
    cases rows.get? ⟨mailbox, uid⟩ with
    | none => rfl
    | some row =>
      have here : resetAt mailbox modSeq uids ⟨mailbox, uid⟩ row = reset modSeq row :=
        if_pos ⟨rfl, among uid List.mem_cons_self⟩
      simp [here]

/-- Resetting one row first and then others resets them all. -/
theorem mapValues_resetAt_insert {row : Message} (fresh : uid ∉ uids)
    (found : rows.get? ⟨mailbox, uid⟩ = some row) :
    (rows.insert ⟨mailbox, uid⟩ (reset modSeq row)).mapValues (resetAt mailbox modSeq uids)
      = rows.mapValues (resetAt mailbox modSeq (uid :: uids)) := by
  apply Table.ext_get?
  intro place
  rw [Table.get?_mapValues, Table.get?_mapValues, Table.get?_insert]
  by_cases here : (⟨mailbox, uid⟩ : Place) = place
  · subst here
    rw [if_pos rfl, found, Option.map_some, Option.map_some, resetAt, resetAt,
      if_neg fun h => fresh h.2, if_pos ⟨rfl, List.mem_cons_self⟩]
  · rw [if_neg here]
    have same : (place.mailbox = mailbox ∧ place.uid ∈ uid :: uids) ↔
        (place.mailbox = mailbox ∧ place.uid ∈ uids) := by
      refine and_congr_right fun inMailbox => ?_
      rw [List.mem_cons, or_iff_right]
      intro sameUid
      apply here
      rw [← inMailbox, ← sameUid]
    cases rows.get? place with
    | none => rfl
    | some other => simp only [Option.map_some, resetAt, same]

/-- A row with another modification sequence is reset. -/
theorem resetEach_cons {row : Message} (found : rows.get? ⟨mailbox, uid⟩ = some row)
    (unsettled : row.modSeq ≠ modSeq) (done : RecentReset) :
    Store.resetEach mailbox modSeq (uid :: uids) rows done
      = Store.resetEach mailbox modSeq uids
        (rows.insert ⟨mailbox, uid⟩ (reset modSeq row))
        { done with updated := done.updated ++ [(reset modSeq row).metadata] } := by
  rw [Store.resetEach, found]
  exact if_neg unsettled

/-- Resetting one row after another, each once, resets those whose modification sequence is another
one. -/
theorem resetEach_eq (once : uids.Nodup) (done : RecentReset) :
    Store.resetEach mailbox modSeq uids rows done =
      ({ updated := done.updated ++
            (rowsAt rows mailbox (pending rows mailbox modSeq uids)).map fun row =>
              (reset modSeq row).metadata
         alreadyApplied := done.alreadyApplied ++ settled rows mailbox modSeq uids
         missing := done.missing ++ missing rows mailbox uids },
        rows.mapValues (resetAt mailbox modSeq (pending rows mailbox modSeq uids))) := by
  induction uids generalizing rows done with
  | nil =>
    simp [Store.resetEach, pending, settled, missing, rowsAt, mapValues_resetAt_nil]
  | cons uid rest ih =>
    obtain ⟨fresh, once⟩ := List.nodup_cons.mp once
    cases found : rows.get? ⟨mailbox, uid⟩ with
    | none =>
      have h1 : pending rows mailbox modSeq (uid :: rest) = pending rows mailbox modSeq rest := by
        simp [pending, found]
      have h2 : settled rows mailbox modSeq (uid :: rest) = settled rows mailbox modSeq rest := by
        simp [settled, found]
      have h3 : missing rows mailbox (uid :: rest) = uid :: missing rows mailbox rest := by
        simp [missing, found]
      rw [Store.resetEach, found]
      simp only [ih once, h1, h2, h3, List.append_assoc, List.singleton_append]
    | some row =>
      have h3 : missing rows mailbox (uid :: rest) = missing rows mailbox rest := by
        simp [missing, found]
      by_cases settles : row.modSeq = modSeq
      · have h1 : pending rows mailbox modSeq (uid :: rest)
            = pending rows mailbox modSeq rest := by
          simp [pending, found, settles]
        have h2 : settled rows mailbox modSeq (uid :: rest)
            = uid :: settled rows mailbox modSeq rest := by
          simp [settled, found, settles]
        rw [Store.resetEach, found]
        simp only [if_pos settles, ih once, h1, h2, h3, List.append_assoc, List.singleton_append]
      · have h1 : pending rows mailbox modSeq (uid :: rest)
            = uid :: pending rows mailbox modSeq rest := by
          simp [pending, found, settles]
        have h2 : settled rows mailbox modSeq (uid :: rest)
            = settled rows mailbox modSeq rest := by
          simp [settled, found, settles]
        have others : ∀ other ∈ rest, (rows.insert ⟨mailbox, uid⟩ (reset modSeq row)).get?
            ⟨mailbox, other⟩ = rows.get? ⟨mailbox, other⟩ := by
          intro other member
          rw [Table.get?_insert, if_neg]
          rintro ⟨⟩
          exact fresh member
        have fresh : uid ∉ pending rows mailbox modSeq rest := fun h => fresh (mem_pending.mp h).1
        have rest_rows := rowsAt_congr fun other
            (member : other ∈ pending rows mailbox modSeq rest) =>
          others other (mem_pending.mp member).1
        have first : rowsAt rows mailbox (uid :: pending rows mailbox modSeq rest)
            = row :: rowsAt rows mailbox (pending rows mailbox modSeq rest) := by
          simp [rowsAt, found]
        rw [resetEach_cons found settles, ih once, pending_congr others, settled_congr others,
          missing_congr others, rest_rows, mapValues_resetAt_insert fresh found, h1, h2, h3, first]
        simp

theorem mem_values_of_rowsAt {row : Message} (member : row ∈ rowsAt rows mailbox uids) :
    row ∈ rows.values := by
  obtain ⟨uid, -, found⟩ := List.mem_filterMap.mp member
  exact Table.mem_values_iff.mpr ⟨_, found⟩

end Mailroom.Memory
