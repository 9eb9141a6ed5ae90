import Mailroom.Proofs.Changes.History
import Mailroom.Proofs.Listings.Reached
import Mailroom.Proofs.Retries.Database
import Mailroom.Proofs.Retries.Memory
import Mailroom.Proofs.Retries.Refusals
/-!
What a reset answers and leaves.

A reset sorts its numbers by what is found at them: nothing, a row that has the modification
sequence already, or another row, which is stamped (`ResetsExactly`). Nothing else in the store is
changed, and the same reset finds nothing more to do. This goes for every way of cutting the numbers
into parts, because a batch is decided number by number, as far as the statements that name the
numbers of a part can carry them (`resetRecent_resetsExactly`). A database that was opened to take
longer parts refuses them (`longReset_refused`).
-/

namespace Mailroom

open Service

variable {σ ρ : Type} {mailbox : MailboxId} {modSeq : ModSeq} {uids : List Uid} {uid : Uid}

/-! ### Rows as they are found -/

/-- The row at a place as it is found without its content, if there is one. -/
def foundAt [Storage σ] (store : σ) (place : Place) : Option Message :=
  (Storage.find place.mailbox place.uid .metadata store).1.toOption.join

/-- Every row can be read. -/
def IsReadable [Storage σ] (store : σ) : Prop :=
  ∀ place : Place, ∃ found, (Storage.find place.mailbox place.uid .metadata store).1 = .ok found

/-- What a reset answers and leaves, told of the rows as they were found before. Each number is
listed once, and the rows with the numbers under `updated` are stamped, which is all that is done.
When it is repeated at once, the same reset answers that it has been applied and does nothing. -/
structure ResetsExactly [Storage σ] (stamp : List Uid → σ → σ) (mailbox : MailboxId)
    (uids : List Uid) (modSeq : ModSeq) (store : σ) (reset : RecentReset) (after : σ) : Prop where
  answers : resetRecent mailbox uids modSeq store = (.ok reset, after)
  missing : reset.missing = (sortedUids uids).filter fun uid =>
    (foundAt store ⟨mailbox, uid⟩).isNone
  alreadyApplied : reset.alreadyApplied = (sortedUids uids).filter fun uid =>
    (foundAt store ⟨mailbox, uid⟩).any fun row => row.modSeq = modSeq
  updatedUids : reset.updated.map Metadata.uid = (sortedUids uids).filter fun uid =>
    (foundAt store ⟨mailbox, uid⟩).any fun row => row.modSeq ≠ modSeq
  updated : reset.updated = (reset.updated.map Metadata.uid).filterMap fun uid =>
    (foundAt store ⟨mailbox, uid⟩).map fun row => (Memory.reset modSeq row).metadata
  left : after = stamp (reset.updated.map Metadata.uid) store
  found : ∀ place, foundAt after place =
    if place.mailbox = mailbox ∧ place.uid ∈ reset.updated.map Metadata.uid then
      (foundAt store place).map (Memory.reset modSeq)
    else foundAt store place
  again : resetRecent mailbox uids modSeq after = (.ok
    { updated := []
      alreadyApplied := sortedUids (reset.updated.map Metadata.uid ++ reset.alreadyApplied)
      missing := reset.missing }, after)

/-! ### Tables of rows -/

/-- Rows that are read as messages at their places, before and after they are stamped. -/
structure TellsResets (modSeq : ModSeq) (rows : Table Place ρ) (read : Place → ρ → Message)
    (isDone : ρ → Bool) (stamp : ρ → ρ) : Prop where
  uid_eq : ∀ {place row}, rows.get? place = some row → (read place row).uid = place.uid
  isDone_eq : ∀ {place row}, rows.get? place = some row →
    isDone row = decide ((read place row).modSeq = modSeq)
  read_stamp : ∀ {place row}, rows.get? place = some row →
    read place (stamp row) = Memory.reset modSeq (read place row)
  done : ∀ row, isDone (stamp row) = true

namespace TellsResets

variable {rows : Table Place ρ} {read : Place → ρ → Message} {isDone : ρ → Bool} {stamp : ρ → ρ}
  (tells : TellsResets modSeq rows read isDone stamp)

include tells

theorem any_isDone (place : Place) : (rows.get? place).any isDone
    = ((rows.get? place).map (read place)).any fun row => decide (row.modSeq = modSeq) := by
  cases found : rows.get? place with
  | none => rfl
  | some row => exact tells.isDone_eq found

theorem unsettled_eq : unsettled isDone mailbox rows uids = uids.filter fun uid =>
    ((rows.get? ⟨mailbox, uid⟩).map (read ⟨mailbox, uid⟩)).any
      fun row => decide (row.modSeq ≠ modSeq) := by
  refine List.filter_congr fun uid _ => ?_
  cases found : rows.get? ⟨mailbox, uid⟩ with
  | none => rfl
  | some row =>
    show (!isDone row) = _
    rw [tells.isDone_eq found, ← decide_not]
    rfl

/-- The rows that a reset answers with have the numbers that it found unsettled. -/
theorem map_uid_updated :
    ((unsettled isDone mailbox rows uids).filterMap fun uid => (rows.get? ⟨mailbox, uid⟩).map
        fun row => (Memory.reset modSeq (read ⟨mailbox, uid⟩ row)).metadata).map Metadata.uid
      = unsettled isDone mailbox rows uids := by
  rw [List.map_filterMap]
  refine (List.filterMap_congr fun uid member => ?_).trans List.filterMap_some
  obtain ⟨-, there⟩ := List.mem_filter.mp member
  obtain ⟨row, found, -⟩ := (Option.any_eq_true _ _).mp there
  rw [found]
  exact congrArg some (tells.uid_eq found)

/-- What a reset leaves of a row. -/
theorem get?_resetRows (place : Place) :
    ((resetRows isDone stamp mailbox uids rows).get? place).map (read place)
      = if place.mailbox = mailbox ∧ place.uid ∈ unsettled isDone mailbox rows uids then
          ((rows.get? place).map (read place)).map (Memory.reset modSeq)
        else (rows.get? place).map (read place) := by
  have stamps : resetRows isDone stamp mailbox uids rows = _ := (resetRows_eq fun _ _ _ => rfl).symm
  rw [stamps, Table.get?_mapValues]
  cases found : rows.get? place with
  | none => simp
  | some row =>
    rw [Option.map_some, Option.map_some, Option.map_some]
    split
    · exact congrArg some (tells.read_stamp found)
    · rfl

/-- After a reset, the rows with its numbers are settled. -/
theorem get?_settled (mailbox : MailboxId) (named : uid ∈ uids) :
    ∃ settle : ρ → ρ, (∀ row, isDone (settle row) = true) ∧
      (resetRows isDone stamp mailbox uids rows).get? ⟨mailbox, uid⟩
        = (rows.get? ⟨mailbox, uid⟩).map settle := by
  refine ⟨fun row => if isDone row then row else stamp row, fun row => ?_, ?_⟩
  · show isDone (if isDone row then row else stamp row) = true
    split
    · assumption
    · exact tells.done row
  · rw [resetRows, Table.get?_mapValues]
    simp [isApart, named]

theorem unsettled_again {part : List Uid} (within : part ⊆ uids) :
    unsettled isDone mailbox (resetRows isDone stamp mailbox uids rows) part = [] := by
  refine List.filter_eq_nil_iff.mpr fun uid member => ?_
  obtain ⟨settle, settles, found⟩ := tells.get?_settled mailbox (within member)
  rw [found]
  cases rows.get? ⟨mailbox, uid⟩ <;> simp [settles]

/-- A reset that is repeated finds every row settled. -/
theorem gather_again {tell : Place → ρ → Metadata} :
    gather (resetOne isDone tell mailbox (resetRows isDone stamp mailbox uids rows)) uids =
      { updated := []
        alreadyApplied := uids.filter fun uid => (rows.get? ⟨mailbox, uid⟩).isSome
        missing := uids.filter fun uid => (rows.get? ⟨mailbox, uid⟩).isNone } := by
  rw [gather_resetOne, tells.unsettled_again (List.Subset.refl uids)]
  congr 1
  all_goals
    refine List.filter_congr fun uid member => ?_
    obtain ⟨settle, settles, found⟩ := tells.get?_settled mailbox member
    rw [found]
    cases rows.get? ⟨mailbox, uid⟩ <;> simp [settles]

omit tells in
/-- The numbers with a row are those of the rows that are stamped and of those that need not be. -/
theorem filter_isSome (ascending : uids.Pairwise (· < ·)) :
    uids.filter (fun uid => (rows.get? ⟨mailbox, uid⟩).isSome)
      = sortedUids (unsettled isDone mailbox rows uids
        ++ uids.filter fun uid => (rows.get? ⟨mailbox, uid⟩).any isDone) := by
  refine eq_sortedUids (ascending.filter _) fun uid => ?_
  rw [unsettled, List.mem_append, List.mem_filter, List.mem_filter, List.mem_filter, ← and_or_left]
  refine and_congr_right fun _ => ?_
  cases rows.get? ⟨mailbox, uid⟩ with
  | none => simp
  | some row => cases settled : isDone row <;> simp [settled]

/-- A store whose rows are read from a table resets exactly if each reset is a batch number by
number on that table. -/
theorem resetsExactly [Storage σ] (stampAll : List Uid → σ → σ) {store after : σ}
    (ran : resetRecent mailbox uids modSeq store = (.ok (gather (resetOne isDone
      (fun place row => (Memory.reset modSeq (read place row)).metadata) mailbox rows)
      (sortedUids uids)), after))
    (repeated : ∃ tell, resetRecent mailbox uids modSeq after = (.ok (gather (resetOne isDone tell
      mailbox (resetRows isDone stamp mailbox (sortedUids uids) rows)) (sortedUids uids)), after))
    (left : after = stampAll (unsettled isDone mailbox rows (sortedUids uids)) store)
    (before : ∀ place, foundAt store place = (rows.get? place).map (read place))
    (later : ∀ place, foundAt after place = ((resetRows isDone stamp mailbox (sortedUids uids)
      rows).get? place).map (read place)) :
    ∃ reset, ResetsExactly stampAll mailbox uids modSeq store reset after := by
  rw [gather_resetOne] at ran
  obtain ⟨tell, repeated⟩ := repeated
  refine ⟨_, ran, ?missing, ?alreadyApplied, ?updatedUids, ?updated, ?left, ?found, ?again⟩
  case missing => simp only [before, Option.isNone_map]
  case alreadyApplied => simp only [before, ← tells.any_isDone]
  case updatedUids =>
    rw [tells.map_uid_updated, tells.unsettled_eq]
    simp only [before]
  case updated =>
    rw [tells.map_uid_updated]
    simp only [before, Option.map_map]
    rfl
  case left => rw [tells.map_uid_updated, left]
  case found =>
    intro place
    rw [tells.map_uid_updated, later, before, tells.get?_resetRows]
  case again =>
    rw [repeated, tells.gather_again, tells.map_uid_updated,
      filter_isSome (sortedUids_ascending uids)]

end TellsResets

/-! ### In memory -/

namespace Memory.Store

variable {m : Store}

/-- What is found in memory are the rows themselves. -/
theorem foundAt_eq (on : m.available = true) (place : Place) :
    foundAt m place = (m.rows.get? place).map id := by
  show (m.find place.mailbox place.uid .metadata).toOption.join = _
  rw [find, ensureAvailable_ok.mpr on]
  rfl

theorem tellsResets (keyed : m.IsKeyed) (modSeq : ModSeq) :
    TellsResets modSeq m.rows (fun _ => id) (isSettled modSeq) (reset modSeq) where
  uid_eq found := congrArg Place.uid (keyed _ _ found)
  isDone_eq _ := rfl
  read_stamp _ := rfl
  done _ := decide_eq_true rfl

theorem resetRecent_ran (on : m.available = true) (mailbox : MailboxId) (uids : List Uid)
    (fits : modSeq ≤ maxStored) :
    Service.resetRecent mailbox uids modSeq m = (.ok (gather (resetOne (isSettled modSeq)
      (tellReset modSeq) mailbox m.rows) (sortedUids uids)),
        stamped mailbox modSeq (sortedUids uids) m) :=
  (resetRecent_of_le fits uids m).trans
    ((resetsBatchwise mailbox fits).runPartitioned_eq on (sortedUids_ascending uids))

theorem stamped_eq : stamped mailbox modSeq uids m
    = resetStore m mailbox modSeq (unsettled (isSettled modSeq) mailbox m.rows uids) := by
  have rows : m.rows.mapValues (resetAt mailbox modSeq
      (unsettled (isSettled modSeq) mailbox m.rows uids))
      = resetRows (isSettled modSeq) (reset modSeq) mailbox uids m.rows :=
    resetRows_eq fun _ _ _ => rfl
  rw [resetStore, rows, stamped]

theorem resetRecent_exactly (on : m.available = true) (keyed : m.IsKeyed) (mailbox : MailboxId)
    (uids : List Uid) (fits : modSeq ≤ maxStored) :
    ∃ reset after, ResetsExactly (fun uids m => resetStore m mailbox modSeq uids) mailbox uids
      modSeq m reset after := by
  have still : (stamped mailbox modSeq (sortedUids uids) m).available = true := on
  have ran := resetRecent_ran on mailbox uids fits
  have repeated := resetRecent_ran still mailbox uids fits
  have same : stamped mailbox modSeq _ (stamped mailbox modSeq _ m) = _ :=
    (resetsBatchwise mailbox fits).effect_again (sortedUids uids) m
  rw [same] at repeated
  obtain ⟨reset, exactly⟩ := (tellsResets keyed modSeq).resetsExactly
    (fun uids m => resetStore m mailbox modSeq uids) ran ⟨_, repeated⟩ stamped_eq (foundAt_eq on)
    (foundAt_eq still)
  exact ⟨reset, _, exactly⟩

end Memory.Store

/-! ### In the database -/

namespace Database.Store

variable {d : Store} {part : List Uid}

/-- A database can be read if all of its rows can be told. -/
theorem IsLegible.isReadable (legible : d.IsLegible) : IsReadable d := by
  intro place
  show ∃ found, d.find place.mailbox place.uid .metadata = .ok found
  rw [find_eq_decode legible.complete legible.encoded]
  cases found : d.database.messages.get? place with
  | none => exact ⟨none, rfl⟩
  | some row =>
    have decoded := (legible.tells.of_mem (Table.get?_eq_some_iff.mp found)).1 .metadata
    exact ⟨_, congrArg (some <$> ·) decoded⟩

/-- Every database that calls led to is open, if its rows can be read. -/
theorem IsSound.isOpen (sound : d.IsSound) (readable : IsReadable d) : d.IsOpen := by
  refine ⟨sound.unlocked, sound.complete, fun place row found => (sound.encoded place row found).1,
    fun place row found => ?_⟩
  obtain ⟨message, read⟩ := readable place
  have read : d.find place.mailbox place.uid .metadata = .ok message := read
  rw [find_eq_decode sound.complete sound.encoded, found] at read
  cases decoded : readEntry d.database .metadata (place, row) with
  | ok message => exact ⟨message, rfl⟩
  | error e =>
    have fails : (some <$> readEntry d.database .metadata (place, row)) = .ok message := read
    rw [decoded] at fails
    cases fails

theorem foundAt_eq (sound : d.IsSound) (isOpen : d.IsOpen) (place : Place) :
    foundAt d place = (d.database.messages.get? place).map (readAt d.database place) := by
  show (d.find place.mailbox place.uid .metadata).toOption.join = _
  rw [find_eq_decode sound.complete sound.encoded]
  cases found : d.database.messages.get? place with
  | none => rfl
  | some row =>
    show (some <$> readEntry d.database .metadata (place, row)).toOption.join = _
    rw [isOpen.read found]
    rfl

theorem IsOpen.tellsResets (isOpen : d.IsOpen) (modSeq : ModSeq) :
    TellsResets modSeq d.database.messages (readAt d.database) (isSettled modSeq)
      (stampRow modSeq) where
  uid_eq found := (of_readEntry (isOpen.read found)).1
  isDone_eq found := by
    unfold isSettled
    simp only [(of_readEntry (isOpen.read found)).2.2, Cell.integer.injEq, Int.ofNat_inj]
  read_stamp found := readAt_of_ok (readEntry_stampRow modSeq (isOpen.read found))
  done _ := decide_eq_true rfl

/-! ### Parts that are not carried -/

instance : Decidable (d.Carries mailbox modSeq part) :=
  decidable_of_iff (_ ∧ _) ⟨fun both => ⟨both.1, both.2⟩, fun carries => ⟨carries.1, carries.2⟩⟩

/-- A part is refused that the engine does not carry. -/
def refusal (mailbox : MailboxId) (modSeq : ModSeq) (d : Store) (part : List Uid) :
    Option StoreError :=
  if d.Carries mailbox modSeq part then none
  else some EngineError.tooManyVariables.toStoreError

theorem refusal_eq_none :
    d.refusal mailbox modSeq part = none ↔ d.Carries mailbox modSeq part := by
  simp [refusal]

/-- The rows of a part that is not carried are not touched. The engine allows for the three
parameters that are no numbers. -/
theorem IsOpen.resetBatch_error (isOpen : d.IsOpen) (roomy : 3 ≤ d.variableLimit)
    (refused : ¬ d.Carries mailbox modSeq part) : Mirror.resetBatch mailbox part modSeq d
      = .error EngineError.tooManyVariables.toStoreError := by
  have exist := Mirror.requireRelations_of_complete isOpen.complete [.messages]
  unfold Mirror.resetBatch Mirror.askRows
  by_cases asked : (storedUids part).length + 1 ≤ d.variableLimit
  · have many : d.variableLimit
        < (unsettled (isSettled modSeq) mailbox d.database.messages part).length + 3 :=
      Nat.not_le.mp fun few => refused ⟨asked, few⟩
    have some_uids : ¬ (unsettled (isSettled modSeq) mailbox d.database.messages
        part).isEmpty = true := by
      rw [List.isEmpty_iff, ← List.length_eq_zero_iff]
      omega
    rw [exist, bindVariables_of_le asked, isOpen.sortUids_eq]
    simp only [ite_self, Outcomes.ok_bind, if_neg some_uids, bindVariables_of_gt many]
    rfl
  · have some_stored : ¬ (storedUids part).isEmpty = true := by
      rw [List.isEmpty_iff, ← List.length_eq_zero_iff]
      omega
    rw [if_neg some_stored, exist, bindVariables_of_gt (Nat.not_le.mp asked)]
    rfl

/-- The reset of other numbers does not change whether a part is carried. -/
theorem carries_stamped {other : List Uid} (apart : ∀ uid ∈ part, uid ∉ other) :
    (stamped mailbox modSeq part d).Carries mailbox modSeq other
      ↔ d.Carries mailbox modSeq other := by
  have same : unsettled (isSettled modSeq) mailbox (resetRows (isSettled modSeq) (stampRow modSeq)
      mailbox part d.database.messages) other
      = unsettled (isSettled modSeq) mailbox d.database.messages other :=
    List.filter_congr fun uid member => by
      rw [get?_resetRows_of_not_mem fun here => apart uid here member]
  have limits : (stamped mailbox modSeq part d).Carries mailbox modSeq other ↔
      (storedUids other).length + 1 ≤ d.variableLimit ∧
        (unsettled (isSettled modSeq) mailbox (resetRows (isSettled modSeq) (stampRow modSeq)
          mailbox part d.database.messages) other).length + 3 ≤ d.variableLimit :=
    ⟨fun carries => ⟨carries.1, carries.2⟩, fun both => ⟨both.1, both.2⟩⟩
  rw [limits, same]
  exact ⟨fun both => ⟨both.1, both.2⟩, fun carries => ⟨carries.1, carries.2⟩⟩

/-- What is carried once is carried again. -/
theorem IsOpen.carries_again (isOpen : d.IsOpen) (roomy : 3 ≤ d.variableLimit)
    (within : part ⊆ uids) (carries : d.Carries mailbox modSeq part) :
    (stamped mailbox modSeq uids d).Carries mailbox modSeq part where
  asked := carries.asked
  changed := by
    show (unsettled _ _ (resetRows _ _ _ _ _) _).length + 3 ≤ _
    rw [(isOpen.tellsResets modSeq).unsettled_again within]
    exact roomy

/-- The database refuses to reset parts that the engine does not carry. -/
theorem resetRecent_refusing (mailbox : MailboxId) (fits : modSeq ≤ maxStored) :
    Refusing (resetsBatchwise mailbox fits) (fun d => d.IsOpen ∧ 3 ≤ d.variableLimit)
      (refusal mailbox modSeq)
      (fun part => (Storage.resetRecent mailbox part modSeq : Step Store RecentReset)) where
  does {d part} opened ascending some_uids := by
    obtain ⟨isOpen, roomy⟩ := opened
    show resetRecent mailbox part modSeq d = _
    rw [Mirror.resetRecent_eq mailbox some_uids fits]
    by_cases carried : d.Carries mailbox modSeq part
    · rw [interrupt_of_none (if_pos carried)]
      exact transaction_of_ok isOpen.unlocked (isOpen.resetBatch_eq ascending carried)
    · rw [interrupt_of_some (if_neg carried)]
      exact transaction_of_error isOpen.unlocked (isOpen.resetBatch_error roomy carried)
  open_effect opened := ⟨opened.1.after_reset, opened.2⟩
  refusal_effect apart := if_congr (carries_stamped apart) rfl rfl

/-- What a reset does to a database that carries all of its parts. -/
theorem IsOpen.resetRecent_ran (isOpen : d.IsOpen) (roomy : 3 ≤ d.variableLimit)
    (fits : modSeq ≤ maxStored)
    (carried : ∀ part ∈ chunks (max d.listBound 1) (sortedUids uids),
      d.Carries mailbox modSeq part) :
    Service.resetRecent mailbox uids modSeq d = (.ok (gather (resetOne (isSettled modSeq)
      (tellReset d.database modSeq) mailbox d.database.messages) (sortedUids uids)),
        stamped mailbox modSeq (sortedUids uids) d) :=
  (resetRecent_of_le fits uids d).trans
    ((resetRecent_refusing mailbox fits).runPartitioned_ok ⟨isOpen, roomy⟩
      (sortedUids_ascending uids) fun part member => if_pos (carried part member))

/-- A reset that answers has had all of its parts carried. -/
theorem IsOpen.carries_of_resetRecent (isOpen : d.IsOpen) (roomy : 3 ≤ d.variableLimit)
    (fits : modSeq ≤ maxStored) {reset : RecentReset} {after : Store}
    (ran : Service.resetRecent mailbox uids modSeq d = (.ok reset, after)) :
    ∀ part ∈ chunks (max d.listBound 1) (sortedUids uids), d.Carries mailbox modSeq part := by
  have taken := (resetRecent_refusing mailbox fits).taken_of_ran ⟨isOpen, roomy⟩
    (sortedUids_ascending uids) ((resetRecent_of_le fits uids d).symm.trans ran)
  exact fun part member => refusal_eq_none.mp (taken part member)

/-- A reset of one part that the engine does not carry changes nothing. -/
theorem IsOpen.resetRecent_refused (isOpen : d.IsOpen) (roomy : 3 ≤ d.variableLimit)
    (mailbox : MailboxId) (fits : modSeq ≤ maxStored) (some_uids : sortedUids uids ≠ [])
    (single : (sortedUids uids).length ≤ max d.listBound 1)
    (refused : ¬ d.Carries mailbox modSeq (sortedUids uids)) :
    Service.resetRecent mailbox uids modSeq d
      = (.error EngineError.tooManyVariables.toStoreError, d) := by
  refine (resetRecent_of_le fits uids d).trans ?_
  refine (runPartitioned_single some_uids single d).trans ?_
  have ascending := sortedUids_ascending uids
  rw [(resetRecent_refusing mailbox fits).does ⟨isOpen, roomy⟩ ascending some_uids,
    interrupt_of_some (if_neg refused)]
  rfl

theorem resetsExactly_iff (sound : d.IsSound) (readable : IsReadable d) (mailbox : MailboxId)
    (uids : List Uid) (fits : modSeq ≤ maxStored) :
    (∃ reset after, ResetsExactly (fun uids d =>
        { d with database := Mirror.resetColumns mailbox modSeq uids d.database }) mailbox uids
        modSeq d reset after) ↔
      ∀ part ∈ chunks (max d.listBound 1) (sortedUids uids), d.Carries mailbox modSeq part := by
  have isOpen := sound.isOpen readable
  have roomy : 3 ≤ d.variableLimit := sound.carries (by decide)
  constructor
  · rintro ⟨reset, after, exactly⟩
    exact isOpen.carries_of_resetRecent roomy fits exactly.answers
  intro carried
  have after : (stamped mailbox modSeq (sortedUids uids) d).IsOpen := isOpen.after_reset
  have carriedAgain : ∀ part ∈ chunks (max d.listBound 1) (sortedUids uids),
      (stamped mailbox modSeq (sortedUids uids) d).Carries mailbox modSeq part :=
    fun part member => isOpen.carries_again roomy (sublist_of_mem_chunks member).subset
      (carried part member)
  have ran := isOpen.resetRecent_ran roomy fits carried
  have repeated := after.resetRecent_ran roomy fits carriedAgain
  have same : stamped mailbox modSeq _ (stamped mailbox modSeq _ d) = _ :=
    (resetsBatchwise mailbox fits).effect_again (sortedUids uids) d
  rw [same] at repeated
  have still : (stamped mailbox modSeq (sortedUids uids) d).IsSound := by
    have sound : ((Service.resetRecent mailbox uids modSeq : Step Store _) d).2.IsSound :=
      Call.runAll_sound (σ := Store) ⟨1, none⟩ [.resetRecent mailbox uids modSeq] sound
    rwa [ran] at sound
  obtain ⟨reset, exactly⟩ := (isOpen.tellsResets modSeq).resetsExactly
    (fun uids d => { d with database := Mirror.resetColumns mailbox modSeq uids d.database }) ran
    ⟨_, repeated⟩ (by rw [resetColumns_eq]; rfl) (foundAt_eq sound isOpen) (foundAt_eq still after)
  exact ⟨reset, _, exactly⟩

end Database.Store

/-! ### After runs -/

theorem Memory.Store.runUnder_keyed (steps : List (Policy × Call)) {m : Memory.Store}
    (keyed : m.IsKeyed) : (Call.runUnder steps m).IsKeyed := by
  induction steps generalizing m with
  | nil => exact keyed
  | cons step rest ih => exact ih (runAll_keeps run_keyed step.1 [step.2] keyed)

/-- After calls under policies of their own, a reset sorts its numbers by what is found at them,
stamps the rows that do not have the modification sequence, does nothing else, and finds nothing
more to do when it is repeated: in memory always, and in a database whose rows can be read if and
only if the engine carries each part of the numbers. A modification sequence that no store keeps is
refused. -/
theorem resetRecent_resetsExactly (steps : List (Policy × Call)) (mailbox : MailboxId)
    (uids : List Uid) (modSeq : ModSeq) :
    (modSeq ≤ maxStored → ∀ bound,
      ∃ reset after, ResetsExactly (fun uids m => Memory.resetStore m mailbox modSeq uids) mailbox
        uids modSeq (Call.runUnder steps (Memory.Store.new bound)) reset after) ∧
    (modSeq ≤ maxStored → ∀ path bound,
      let d := Call.runUnder steps (Database.Store.new path bound)
      IsReadable d →
      ((∃ reset after, ResetsExactly (fun uids d =>
          { d with database := Mirror.resetColumns mailbox modSeq uids d.database }) mailbox uids
          modSeq d reset after) ↔
        ∀ part ∈ chunks (max d.listBound 1) (sortedUids uids), d.Carries mailbox modSeq part)) ∧
    (maxStored < modSeq → ∀ {σ : Type} [Storage σ] (store : σ),
      resetRecent mailbox uids modSeq store
        = (.error (.invalidInput (.tooGreat .modSeq modSeq)), store)) := by
  refine ⟨fun fits bound => ?_, fun fits path bound readable => ?_, fun great => ?_⟩
  · have sound : (Call.runUnder steps (Memory.Store.new bound)).IsSound :=
      Recorded.runUnder_sound (σ := Memory.Store) (Memory.Store.new_isSound bound) steps
    exact Memory.Store.resetRecent_exactly sound.available
      (Memory.Store.runUnder_keyed steps (Memory.Store.new_keyed bound)) mailbox uids fits
  · have sound : (Call.runUnder steps (Database.Store.new path bound)).IsSound :=
      Recorded.runUnder_sound (σ := Database.Store) (Mirror.new_isSound path bound) steps
    exact Database.Store.resetsExactly_iff sound readable mailbox uids fits
  · intro σ _ store
    exact congrFun (if_pos great) store

/-- With parts of one number: of the messages 1 and 2 of a mailbox, the second has the modification
sequence already, 9 and 9223372036854775808 are no numbers of messages. -/
theorem resetRecent_resetsExactly_twoMessages :
    let calls : List Call := [.append "inbox" { id := "m1" } .epoch,
      .append "inbox" { id := "m2" } .epoch]
    let steps := calls.map (Prod.mk ⟨1, none⟩)
    let uids := [9, 2, 1, 2, maxStored + 1]
    (∃ reset after, ResetsExactly (fun uids m => Memory.resetStore m "inbox" 2 uids) "inbox" uids 2
        (Call.runUnder steps (Memory.Store.new 1)) reset after) ∧
      (∃ reset after, ResetsExactly (fun uids d =>
        { d with database := Mirror.resetColumns "inbox" 2 uids d.database }) "inbox" uids 2
        (Call.runUnder steps (Database.Store.new "mail" 1)) reset after) ∧
      resetRecent "inbox" uids (maxStored + 1) (Memory.Store.new 1)
        = (.error (.invalidInput (.tooGreat .modSeq (maxStored + 1))), Memory.Store.new 1) := by
  intro calls steps uids
  have plain : ∀ call ∈ calls, call.HasPlainDates := by
    have epoch : Instant.epoch.HasPlainYear := by decide
    simp [calls, Call.HasPlainDates, epoch]
  have readable : IsReadable (Call.runUnder steps (Database.Store.new "mail" 1)) := by
    rw [Call.runUnder_map]
    exact (Database.Store.runAll_isLegible ⟨1, none⟩ calls "mail" 1 plain).isReadable
  have carried : ∀ part ∈ chunks (max (Call.runUnder steps (Database.Store.new "mail" 1)).listBound
      1) (sortedUids uids), (Call.runUnder steps (Database.Store.new "mail" 1)).Carries "inbox" 2
        part := by decide +kernel
  have inDatabase := (resetRecent_resetsExactly steps "inbox" uids 2).2.1 (by decide) "mail" 1
  exact ⟨(resetRecent_resetsExactly steps "inbox" uids 2).1 (by decide) 1,
    (inDatabase readable).mpr carried,
    (resetRecent_resetsExactly steps "inbox" uids (maxStored + 1)).2.2 (Nat.lt_succ_self _) _⟩

/-- A new database that was opened to take 100000 numbers at once does not tell 40000 numbers to be
missing, but fails. -/
theorem longReset_refused :
    let d := Call.runUnder [] (Database.Store.new "mail" 100000)
    5 ≤ maxStored ∧ IsReadable d ∧
      resetRecent "inbox" (List.range' 1 40000) 5 d
        = (.error Database.EngineError.tooManyVariables.toStoreError, d) ∧
      ¬ ∃ reset after, ResetsExactly (fun uids d =>
        { d with database := Mirror.resetColumns "inbox" 5 uids d.database }) "inbox"
        (List.range' 1 40000) 5 d reset after := by
  intro d
  have sound : d.IsSound := Mirror.new_isSound "mail" 100000
  have readable : IsReadable d :=
    (Database.Store.runAll_isLegible ⟨1, none⟩ [] "mail" 100000 (List.forall_mem_nil _)).isReadable
  have length : (List.range' 1 40000).length = 40000 := List.length_range'
  have sorted : sortedUids (List.range' 1 40000) = List.range' 1 40000 :=
    sortedUids_of_ascending (List.pairwise_lt_range' ..)
  have stored : Database.Store.storedUids (List.range' 1 40000) = List.range' 1 40000 := by
    refine List.filter_eq_self.mpr fun uid member => decide_eq_true ?_
    have below : uid < 1 + 40000 := (List.mem_range'_1.mp member).2
    exact Nat.le_trans (Nat.le_of_lt below) (by decide)
  have some_uids : sortedUids (List.range' 1 40000) ≠ [] := by
    rw [sorted, Ne, ← List.length_eq_zero_iff, length]
    decide
  have single : (sortedUids (List.range' 1 40000)).length ≤ max d.listBound 1 := by
    rw [sorted, length]
    decide
  have tooMany : ¬ d.Carries "inbox" 5 (sortedUids (List.range' 1 40000)) := by
    rintro ⟨asked, -⟩
    rw [sorted, stored, length, sound.variableLimit] at asked
    exact absurd asked (by decide)
  have roomy : 3 ≤ d.variableLimit := by
    rw [sound.variableLimit]
    decide
  have refused : resetRecent "inbox" (List.range' 1 40000) 5 d = _ :=
    (sound.isOpen readable).resetRecent_refused roomy "inbox" (by decide) some_uids single tooMany
  refine ⟨by decide, readable, refused, ?_⟩
  rintro ⟨reset, after, exactly⟩
  cases exactly.answers.symm.trans refused

end Mailroom
