import Mathlib.Data.List.Perm.Subperm
import Mailroom.Proofs.Changes.Answers
/-!
Reads of changes in parts.

A client may ask for a bounded number of changes from a state on, and is told whether there are
more. What it gets is the front of what the whole read yields, and it fails as the whole read does
(`changesSinceLimited_isPart`). From the successor of the last state it goes on with the rest. If
the records of an account are kept for ever, each further part starts at a record that is there, so
the parts come to an end and make up the whole (`resumes`).
-/

namespace Mailroom

open Service

/-- What a read of at most some number of changes answers, by what the whole read answers: the same
error, or the first records and whether there are more. -/
inductive IsPart (most : Nat) :
    Except StoreError (Scanned ChangeRecord) → Except StoreError ChangesPage → Prop where
  | fails (e : StoreError) : IsPart most (.error e) (.error e)
  | answers (records : List ChangeRecord) (pages : Nat) :
    IsPart most (.ok ⟨records.map .ok, pages⟩) (.ok ⟨records.take most, most < records.length⟩)

theorem IsPart.of_ok {most pages : Nat} {records : List ChangeRecord}
    {answer : Except StoreError ChangesPage}
    (part : IsPart most (.ok ⟨records.map .ok, pages⟩) answer) :
    answer = .ok ⟨records.take most, most < records.length⟩ := by
  generalize isWhole :
    (.ok ⟨records.map .ok, pages⟩ : Except StoreError (Scanned ChangeRecord)) = whole at part
  cases part with
  | fails e => cases isWhole
  | answers others pages =>
    simp only [Except.ok.injEq, Scanned.mk.injEq] at isWhole
    rw [List.map_injective_iff.mpr (fun _ _ => Except.ok.inj) isWhole.1]

/-- The parts of the changes of an account from a state on, each asked for at an instant of its own
from the successor of the last state of the part before, until there are no more. -/
inductive Resumes {σ : Type} [Storage σ] (policy : Policy) (account : AccountId) (most : Nat)
    (clock : Nat → Instant) : Nat → State → σ → List (List ChangeRecord) → Prop where
  | last {n : Nat} {since : State} {store after : σ} {changes : List ChangeRecord}
    (answered : (Call.changesSinceLimited account since most (clock n)).run policy store
      = (.ok ⟨changes, false⟩, after)) :
    Resumes policy account most clock n since store [changes]
  | more {n : Nat} {since : State} {store after : σ} {changes : List ChangeRecord}
    {record : ChangeRecord} {parts : List (List ChangeRecord)}
    (answered : (Call.changesSinceLimited account since most (clock n)).run policy store
      = (.ok ⟨changes, true⟩, after))
    (isLast : changes.getLast? = some record)
    (rest : Resumes policy account most clock (n + 1) record.state.next after parts) :
    Resumes policy account most clock n since store (changes :: parts)

/-- There is one way only to go on. -/
theorem Resumes.unique {σ : Type} [Storage σ] {policy : Policy} {account : AccountId} {most : Nat}
    {clock : Nat → Instant} {n : Nat} {since : State} {store : σ}
    {parts others : List (List ChangeRecord)}
    (resumes : Resumes policy account most clock n since store parts)
    (resumes' : Resumes policy account most clock n since store others) : others = parts := by
  induction resumes generalizing others with
  | last answered =>
    cases resumes' with
    | last answered' =>
      rw [answered] at answered'
      cases answered'
      rfl
    | more answered' isLast' rest' =>
      rw [answered] at answered'
      cases answered'
  | more answered isLast rest ih =>
    cases resumes' with
    | last answered' =>
      rw [answered] at answered'
      cases answered'
    | more answered' isLast' rest' =>
      rw [answered] at answered'
      cases answered'
      rw [isLast] at isLast'
      cases isLast'
      rw [ih rest']

namespace Logged

variable {σ : Type} [Storage σ] [Sound σ] [Logged σ] [PureReads σ] {store : σ} {policy : Policy}
  {account : AccountId} {since : State} {now : Instant} {live records : List ChangeRecord}

omit [PureReads σ] in
/-- Reads with and without a limit fail alike, and start alike. -/
theorem changesFrom_cases (sound : isSound store) (policy : Policy)
    (room : (log store).latest account < maxWord)
    (readable : ((log store).live account since now).mapM LogRow.outcome = .ok records)
    {limit : Option Nat} (wanted : limit ≠ some 0) :
    (∃ e, changesFrom policy account since none now store = (.error e, store) ∧
      changesFrom policy account since limit now store = (.error e, store)) ∨
    ∃ scan scan', changesFrom policy account since none now store = (.ok scan, store) ∧
      changesFrom policy account since limit now store = (.ok scan', store) := by
  have unlimited : (none : Option Nat) ≠ some 0 := by simp
  rcases Nat.lt_or_ge ((log store).latest account) since with above | reached
  · exact .inl ⟨_, changesFrom_beyond sound none above, changesFrom_beyond sound limit above⟩
  by_cases untouched : since = State.initial ∧ (log store).latest account = State.initial
  · obtain ⟨rfl, initial⟩ := untouched
    exact .inr ⟨_, _, changesFrom_untouched sound policy none now initial,
      changesFrom_untouched sound policy limit now initial⟩
  obtain ⟨starts, stale⟩ :=
    changesFrom_reached sound policy room unlimited readable reached untouched
  obtain ⟨starts', stale'⟩ :=
    changesFrom_reached sound policy room wanted readable reached untouched
  by_cases isLive : ∃ record ∈ records, record.state = max since 1
  · obtain ⟨scan, started⟩ := starts isLive
    obtain ⟨scan', started'⟩ := starts' isLive
    exact .inr ⟨scan, scan', started, started'⟩
  · exact .inl ⟨_, stale isLive, stale' isLive⟩

/-- A read that was started delivers the records up to its limit, if they can be read. -/
theorem changesFrom_rows (sound : isSound store) (room : (log store).latest account < maxWord)
    (readable : ((log store).live account since now).mapM LogRow.outcome = .ok records)
    {limit : Option Nat} {scan : Scan σ State ChangeRecord}
    (started : changesFrom policy account since limit now store = (.ok scan, store)) :
    (drain scan store).1 = (cut limit records).map .ok := by
  obtain ⟨-, delivered, -⟩ := changesFrom_delivers sound room started live_length_le
  refine delivered.eq_of_decoded ?_
  cases limit with
  | none => exact readable
  | some limit => exact Outcomes.mapM_take_of_eq_ok readable limit

omit [Storage σ] [Sound σ] [Logged σ] [PureReads σ] in
/-- One row more than are asked for tells whether there are more. -/
theorem take_cut (most : Nat) (few : records.length < maxWord) :
    let read := cut (some (min (most + 1) maxWord)) records
    read.take most = records.take most ∧
      (most < read.length ↔ most < records.length) := by
  simp only [cut, List.take_take, List.length_take]
  constructor
  · rcases Nat.lt_or_ge most maxWord with below | above
    · congr 1
      omega
    · rw [List.take_of_length_le (by omega), List.take_of_length_le (by omega)]
  · omega

omit [PureReads σ] in
/-- There are no more records than states. -/
theorem length_le_latest (sound : isSound store)
    (readable : ((log store).live account since now).mapM LogRow.outcome = .ok records) :
    records.length ≤ (log store).latest account := by
  obtain ⟨ascending, bounded⟩ := readable_ascending sound readable
  have distinct : (records.map ChangeRecord.state).Nodup :=
    (List.pairwise_map.mpr ascending).imp Nat.ne_of_lt
  have among : records.map ChangeRecord.state ⊆ List.range' 1 ((log store).latest account) := by
    intro state member
    obtain ⟨record, present, rfl⟩ := List.mem_map.mp member
    obtain ⟨first, last⟩ := bounded record present
    exact List.mem_range'_1.mpr
      ⟨Nat.le_trans (Nat.le_max_right since 1) first, Nat.lt_one_add_iff.mpr last⟩
  have length := (distinct.subperm among).length_le
  rwa [List.length_map, List.length_range'] at length

/-- A read of at most some number of changes is a part of the whole read. -/
theorem changesSinceLimited_isPart (sound : isSound store) (policy : Policy)
    (room : (log store).latest account < maxWord)
    (readable : ((log store).live account since now).mapM LogRow.outcome = .ok records)
    (most : Nat) :
    IsPart most ((Call.changesSince account since now).run policy store).1
      ((Call.changesSinceLimited account since most now).run policy store).1 := by
  have wanted : some (min (most + 1) maxWord) ≠ some 0 := by
    rw [ne_eq, Option.some.injEq]
    exact Nat.ne_of_gt (Nat.lt_min.mpr ⟨Nat.succ_pos most, by decide⟩)
  have ran : ((Call.changesSinceLimited account since most now).run policy store)
    = (changesFrom policy account since (some (min (most + 1) maxWord)) now >>= fun scan =>
        collected scan >>= fun changes =>
          pure (⟨changes.take most, most < changes.length⟩ : ChangesPage)) store := rfl
  rcases changesFrom_cases sound policy room readable wanted with
    ⟨e, fails, fails'⟩ | ⟨scan, scan', starts, starts'⟩
  · rw [changesSince_of_error fails, ran, Step.bind_of_error fails']
    exact .fails e
  · have rows : (drain scan store).1 = records.map .ok :=
      changesFrom_rows sound room readable starts
    have rows' := changesFrom_rows sound room readable starts'
    have few := Nat.lt_of_le_of_lt (length_le_latest sound readable) room
    obtain ⟨front, more⟩ := take_cut most few
    have drains : (Call.drained scan store).1
        = .ok ⟨records.map .ok, (drain scan store).2.1.paging.pages⟩ := by
      rw [← rows]
      rfl
    have collects : collected scan' store
        = (.ok (cut (some (min (most + 1) maxWord)) records), (drain scan' store).2.2) := by
      simp only [collected, rows', List.mapM_map]
      exact congrArg (·, _) (Outcomes.mapM_ok _)
    rw [changesSince_of_ok starts, drains, ran, Step.bind_of_ok starts', Step.bind_of_ok collects,
      front]
    simp only [more]
    exact .answers records _

/-- If the whole read yields records, a read of at most some number of them yields the first. -/
theorem changesSinceLimited_of_ok (sound : isSound store)
    (room : (log store).latest account < maxWord)
    (readable : ((log store).live account since now).mapM LogRow.outcome = .ok records)
    {scanned : Scanned ChangeRecord}
    (done : ((Call.changesSince account since now).run policy store).1 = .ok scanned)
    (most : Nat) :
    scanned.rows = records.map .ok ∧
      (Call.changesSinceLimited account since most now).run policy store
        = (.ok ⟨records.take most, most < records.length⟩, store) := by
  obtain ⟨rows, pages⟩ := scanned
  have delivered : rows = records.map .ok :=
    (changesSince_delivered sound room done).2.eq_of_decoded readable
  have part := changesSinceLimited_isPart sound policy room readable most
  rw [done, delivered] at part
  have looks := Call.run_of_isRead policy
    (show (Call.changesSinceLimited account since most now).IsRead from trivial) store
  exact ⟨delivered, Prod.ext part.of_ok looks⟩

/-! ### Reads that go on -/

section Kept

variable (sound : isSound store) (room : (log store).latest account < maxWord)
  (readable : ∀ now, ((log store).live account .initial now).mapM LogRow.outcome = .ok live)
  (states : live.map ChangeRecord.state = List.range' 1 ((log store).latest account))

include sound room readable states

omit [PureReads σ] states in
/-- The successor of a record's state is not past the latest state if later records are live. -/
theorem next_le_latest {before after : List ChangeRecord} {record : ChangeRecord}
    (split : (live.filter fun record => since ≤ record.state) = before ++ record :: after)
    (more : after ≠ []) :
    record.state.next = record.state + 1 ∧ record.state.next ≤ (log store).latest account := by
  obtain ⟨ascending, bounded⟩ := readable_ascending sound (readable .epoch)
  have isLive : record ∈ live := (List.mem_filter.mp (split ▸ List.mem_append_cons_self)).1
  have next : record.state.next = record.state + 1 :=
    if_pos (Nat.lt_of_le_of_lt (bounded record isLive).2 room)
  refine ⟨next, ?_⟩
  obtain ⟨first, rest, rfl⟩ := List.exists_cons_of_ne_nil more
  have past : first ∈ live.filter fun other => record.state < other.state := by
    rw [filter_past_of_from ChangeRecord.state ascending split]
    exact List.mem_cons_self
  obtain ⟨present, past⟩ := List.mem_filter.mp past
  rw [next]
  exact Nat.le_trans (of_decide_eq_true past) (bounded first present).2

/-- If every state up to the latest has its record at all times, a read that goes on from the
successor of one of them yields the later ones. -/
theorem changesSince_next (policy : Policy) (now : Instant) {before after : List ChangeRecord}
    {record : ChangeRecord}
    (split : (live.filter fun record => since ≤ record.state) = before ++ record :: after)
    (more : after ≠ []) :
    (live.filter fun other => record.state.next ≤ other.state) = after ∧
      ∃ pages, ((Call.changesSince account record.state.next now).run policy store).1
        = .ok ⟨after.map .ok, pages⟩ := by
  obtain ⟨next, reached⟩ := next_le_latest sound room readable split more
  have same : (live.filter fun other => record.state.next ≤ other.state) = after := by
    rw [← filter_past_of_from ChangeRecord.state (readable_ascending sound (readable now)).1 split,
      next]
    rfl
  have isLive : ∃ other ∈ live, other.state = max record.state.next 1 := by
    rw [Nat.max_eq_left (State.next_bounds _).1]
    have listed : record.state.next ∈ live.map ChangeRecord.state := by
      rw [states]
      exact List.mem_range'_1.mpr ⟨(State.next_bounds _).1, Nat.lt_one_add_iff.mpr reached⟩
    obtain ⟨other, present, same⟩ := List.mem_map.mp listed
    exact ⟨other, present, same⟩
  have touched : ¬ (record.state.next = (log store).latest account
      ∧ (log store).latest account = State.initial) := by
    rintro ⟨same, initial⟩
    have positive := (State.next_bounds record.state).1
    rw [same, initial] at positive
    exact absurd positive (by decide)
  have reads : ReadsLive account _ live _ fun since =>
      ((Call.changesSince account since now).run policy store).1 :=
    readsLive sound room (readable now)
  obtain ⟨pages, yields⟩ := reads.delivered _ reached touched isLive
  exact ⟨same, pages, same ▸ yields⟩

/-- If every state up to the latest has its record at all times, the parts of the changes from a
state on make up what the whole read yields. -/
theorem resumes_of_kept (policy : Policy) {most : Nat} (positive : 1 ≤ most)
    (clock : Nat → Instant) {n : Nat} {since : State} {scanned : Scanned ChangeRecord}
    (done : ((Call.changesSince account since (clock n)).run policy store).1 = .ok scanned) :
    ∃ parts, Resumes policy account most clock n since store parts ∧
      scanned.rows = parts.flatten.map .ok := by
  have readable' := readable_since sound since (readable (clock n))
  generalize isRecords : (live.filter fun record => decide (since ≤ record.state)) = records
    at readable'
  generalize count : records.length = length
  induction length using Nat.strongRecOn generalizing n since scanned records with
  | _ length ih =>
    obtain ⟨delivered, answered⟩ := changesSinceLimited_of_ok sound room readable' done most
    rw [delivered]
    by_cases more : most < records.length
    · rcases List.eq_nil_or_concat (records.take most) with none | ⟨front, record, some⟩
      · have length := congrArg List.length none
        rw [List.length_take, List.length_nil] at length
        omega
      rw [List.concat_eq_append] at some
      have split : records = front ++ record :: records.drop most := by
        rw [← List.singleton_append, ← List.append_assoc, ← some, List.take_append_drop]
      have remain : records.drop most ≠ [] := by
        rw [ne_eq, List.drop_eq_nil_iff, Nat.not_le]
        exact more
      obtain ⟨isRest, pages, yields⟩ := changesSince_next sound room readable states policy
        (clock (n + 1)) (isRecords.trans split) remain
      have fewer : (records.drop most).length < length := by
        rw [List.length_drop]
        omega
      have readable'' := readable_since sound record.state.next (readable (clock (n + 1)))
      rw [isRest] at readable''
      obtain ⟨parts, resumes, rows⟩ := ih _ fewer yields _ isRest readable'' rfl
      rw [decide_eq_true more] at answered
      have isLast : (records.take most).getLast? = .some record := by
        rw [some, List.getLast?_concat]
      refine ⟨records.take most :: parts, .more answered isLast resumes, ?_⟩
      rw [List.flatten_cons, List.map_append, ← rows, ← List.map_append, List.take_append_drop]
    · rw [decide_eq_false more, List.take_of_length_le (Nat.not_lt.mp more)] at answered
      exact ⟨[records], .last answered, by rw [List.flatten_singleton]⟩

end Kept

end Logged

/-! ### Reads after runs -/

/-- After calls under policies of their own, a read of at most some number of the changes of an
account is a part of the whole read. If every change was recorded without a retention, the parts
come to an end and make up what the whole read yields, in one way. -/
structure ReadsInParts {σ : Type} [Storage σ] (start : σ) (steps : List (Policy × Call))
    (account : AccountId) : Prop where
  part : ∀ (policy : Policy) (since : State) (most : Nat) (now : Instant),
    IsPart most
      ((Call.changesSince account since now).run policy (Call.runUnder steps start)).1
      ((Call.changesSinceLimited account since most now).run policy
        (Call.runUnder steps start)).1
  resumes : (∀ entry ∈ recordsOf account steps start, entry.1.retention = none) →
    ∀ (policy : Policy) (since : State) (most : Nat) (clock : Nat → Instant)
      (scanned : Scanned ChangeRecord), 1 ≤ most →
    ((Call.changesSince account since (clock 0)).run policy (Call.runUnder steps start)).1
      = .ok scanned →
    ∃ parts, Resumes policy account most clock 0 since (Call.runUnder steps start) parts ∧
      (∀ others, Resumes policy account most clock 0 since (Call.runUnder steps start) others →
        others = parts) ∧
      scanned.rows = parts.flatten.map .ok

/-- A change that is recorded without a retention never expires. -/
theorem Change.outlasts_of_kept {policy : Policy} {before : Instant → Instant → Prop}
    {now : Instant} {change : Change} (kept : policy.retention = none) :
    change.Outlasts policy before now := by
  intro t _ expiry expires
  rw [Policy.expiry, kept] at expires
  cases expires

namespace Recorded

open Logged

variable {σ : Type} [Storage σ] [Sound σ] [Recorded σ] [Revised σ] [PureReads σ]
  {account : AccountId} {start : σ} {steps : List (Policy × Call)}

/-- Reads after a run can be made in parts, if their records can be read and one kept without a
retention is live at all times. -/
theorem readsInParts (blank : IsBlank start)
    (endures : ∀ (entry : Policy × Change) now, entry.1.retention = none →
      lasts σ entry.1 [now] entry.2 = true)
    (room : (log (Call.runUnder steps start)).latest account < maxWord)
    (readable : ∀ entry ∈ recordsOf account steps start,
      ∃ record, (row σ entry.1 entry.2).outcome = .ok record) :
    ReadsInParts start steps account := by
  have sound := runUnder_sound blank.sound steps
  have readable := readable_of_records blank room readable
  constructor
  case part =>
    intro policy since most now
    exact changesSinceLimited_isPart sound policy room
      (readable_since sound since (readable now)) most
  case resumes =>
    intro kept policy since most clock scanned positive done
    have all (now : Instant) : ((recordsOf account steps start).filter fun entry =>
        lasts σ entry.1 [now] entry.2) = recordsOf account steps start :=
      List.filter_eq_self.mpr fun entry member => endures entry now (kept entry member)
    simp only [all] at readable
    obtain ⟨latest, states, -⟩ := run_records blank.sound steps room
    rw [blank.latest account] at latest states
    have inTurn : ((recordsOf account steps start).map fun entry =>
          (shown σ entry.2.draft).record entry.2.state).map ChangeRecord.state
        = List.range' 1 ((log (Call.runUnder steps start)).latest account) := by
      rw [latest, List.map_map]
      exact states.trans (by rw [State.initial, Nat.zero_add, Nat.zero_add])
    obtain ⟨parts, resumes, rows⟩ :=
      resumes_of_kept sound room readable inTurn policy positive clock done
    exact ⟨parts, resumes, fun others => resumes.unique, rows⟩

end Recorded

/-- The changes of an account can be read in parts, as long as the states have not run out in memory
and the dates of the changes can be read in the database. -/
theorem changeReads_inParts (path : String) (listBound : Nat) (steps : List (Policy × Call))
    (account : AccountId) :
    ((recordsOf account steps (Memory.Store.new listBound)).length < maxWord →
      ReadsInParts (Memory.Store.new listBound) steps account) ∧
    ((∀ entry ∈ recordsOf account steps (Database.Store.new path listBound),
        entry.2.draft.date.HasPlainYear) →
      ReadsInParts (Database.Store.new path listBound) steps account) := by
  constructor
  · intro few
    refine Recorded.readsInParts (Memory.Store.new_isBlank listBound) (fun entry now kept => ?_)
      (Memory.Store.states_left few) fun _ _ => ⟨_, rfl⟩
    exact Memory.Store.lasts_iff.mpr (Change.outlasts_of_kept kept)
  · intro plain
    refine Recorded.readsInParts (Mirror.new_isBlank path listBound) (fun entry now kept => ?_)
      (Mirror.states_left path listBound steps account)
      fun entry member => Mirror.outcome_iff.mpr (plain entry member)
    exact Mirror.lasts_iff.mpr (Change.outlasts_of_kept kept)

/-- Four changes that are kept for ever, and a purge. -/
def keptForEver : List (Policy × Call) :=
  [(⟨2, none⟩, .recordChange { account := "bob", date := .epoch }),
    (⟨2, none⟩, .recordChange { account := "bob", date := someTimeLater }),
    (⟨1, some 1000⟩, .purgeExpired someTimeLater),
    (⟨2, none⟩, .recordChange { account := "bob", date := .epoch }),
    (⟨2, none⟩, .recordChange { account := "bob", date := .epoch })]

theorem changeReads_inParts_keptForEver :
    ReadsInParts (Memory.Store.new 1) keptForEver "bob" ∧
      ReadsInParts (Database.Store.new "mail" 1) keptForEver "bob" ∧
      ∃ parts, Resumes ⟨2, none⟩ "bob" 3 (fun _ => .epoch) 0 1
          (Call.runUnder keptForEver (Memory.Store.new 1)) parts ∧
        parts.flatten.map ChangeRecord.state = [1, 2, 3, 4] := by
  have recorded : (recordsOf "bob" keptForEver (Memory.Store.new 1)).length = 4 := by
    decide +kernel
  have dates : (recordsOf "bob" keptForEver (Database.Store.new "mail" 1)).map
      (fun entry => entry.2.draft.date) = [.epoch, someTimeLater, .epoch, .epoch] := by
    decide +kernel
  have kept : (recordsOf "bob" keptForEver (Memory.Store.new 1)).map
      (fun entry => entry.1.retention) = [none, none, none, none] := by
    decide +kernel
  have yielded : ((Call.changesSince "bob" 1 .epoch).run ⟨2, none⟩
      (Call.runUnder keptForEver (Memory.Store.new 1))).1.toOption.map (fun scanned : Scanned _ =>
        scanned.rows.map fun row => row.toOption.map ChangeRecord.state)
      = some [some 1, some 2, some 3, some 4] := by
    decide +kernel
  have inMemory : ReadsInParts (Memory.Store.new 1) keptForEver "bob" := by
    refine (changeReads_inParts "mail" 1 keptForEver "bob").1 ?_
    rw [recorded]
    decide
  refine ⟨inMemory, ?_, ?_⟩
  · refine (changeReads_inParts "mail" 1 keptForEver "bob").2 fun entry member => ?_
    have listed : entry.2.draft.date ∈ [Instant.epoch, someTimeLater, .epoch, .epoch] := by
      rw [← dates]
      exact List.mem_map_of_mem member
    have plain : ∀ date ∈ [Instant.epoch, someTimeLater, .epoch, .epoch], date.HasPlainYear := by
      unfold Instant.HasPlainYear
      decide +kernel
    exact plain _ listed
  · have forEver (entry : Policy × Change)
        (member : entry ∈ recordsOf "bob" keptForEver (Memory.Store.new 1)) :
        entry.1.retention = none := by
      have listed : entry.1.retention ∈ [none, none, none, none] := by
        rw [← kept]
        exact List.mem_map_of_mem member
      simpa using listed
    rcases done : ((Call.changesSince "bob" 1 .epoch).run ⟨2, none⟩
      (Call.runUnder keptForEver (Memory.Store.new 1))).1 with e | scanned
    · rw [done] at yielded
      cases yielded
    rw [done] at yielded
    obtain ⟨parts, resumes, -, rows⟩ :=
      inMemory.resumes forEver ⟨2, none⟩ 1 3 (fun _ => .epoch) scanned (by decide) done
    refine ⟨parts, resumes, ?_⟩
    have read : scanned.rows.map (fun row => row.toOption.map ChangeRecord.state)
      = [some 1, some 2, some 3, some 4] := Option.some.inj yielded
    have states : (parts.flatten.map ChangeRecord.state).map some = [1, 2, 3, 4].map some := by
      rw [rows, List.map_map] at read
      rw [List.map_map]
      exact read
    exact List.map_injective_iff.mpr (fun _ _ => Option.some.inj) states

end Mailroom
