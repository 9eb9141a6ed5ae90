import Mailroom.Proofs.Memory.Reset
import Mailroom.Proofs.Mirror.Reads
/-!
Clearing the recent flag in memory and in the database.

Memory goes through the numbers one after another; the database first sorts the numbers by what
their rows say (`sortUids_eq`), and then changes the rows at once and reads them back.
-/

namespace Mailroom.Mirror

open Database (MessageRow)
open Memory

variable {regular : Prop} {log : Log} {m : Memory.Store} {d : Database.Store}
  {rows : Table Place Message} {mailbox : MailboxId} {modSeq : ModSeq} {uids : List Uid} {uid : Uid}

/-- Places in one mailbox are ordered by their numbers. -/
theorem compare_place {other : Uid} :
    compare (Place.mk mailbox uid) (Place.mk mailbox other) = compare uid other := by
  show (compare mailbox mailbox).then (compare uid other) = _
  rw [Std.compare_self]
  rfl

/-- The entries with ascending numbers, chosen from a table, come in the order of the numbers. -/
theorem entries_filter_uids {ρ : Type} {rows : Table Place ρ} (keep : Place → ρ → Bool)
    (ascending : uids.Pairwise (· < ·)) (named : ∀ entry ∈ rows.entries,
      keep entry.1 entry.2 = true ↔ entry.1.mailbox = mailbox ∧ entry.1.uid ∈ uids) :
    (rows.filter keep).entries = uids.filterMap fun uid =>
      (rows.get? ⟨mailbox, uid⟩).map (Place.mk mailbox uid, ·) := by
  have keys : (uids.map (Place.mk mailbox)).Pairwise fun a b => compare a b = .lt := by
    rw [List.pairwise_map]
    exact ascending.imp fun {a b} before => compare_place.trans (Nat.compare_eq_lt.mpr before)
  rw [Table.entries_filter_keys keep keys fun entry member => ?_, List.filterMap_map]
  · rfl
  rw [named entry member, List.mem_map]
  constructor
  · rintro ⟨here, member⟩
    exact ⟨entry.1.uid, member, by rw [← here]⟩
  · rintro ⟨uid, member, same⟩
    rw [← same]
    exact ⟨rfl, member⟩

/-- Fails if a reset cannot ask for the rows with some numbers. -/
def askRows (store : Database.Store) (uids : List Uid) : Except StoreError Unit :=
  if (Database.Store.storedUids uids).isEmpty then .ok ()
  else do
    Database.requireRelations store.database [.messages]
    store.bindVariables ((Database.Store.storedUids uids).length + 1)

/-- Stamps the rows with some numbers and clears their recent flag. -/
def resetColumns (mailbox : MailboxId) (modSeq : ModSeq) (uids : List Uid) (db : Database) :
    Database :=
  { db with
    messages := db.messages.mapValues fun place row =>
      if place.mailbox = mailbox && uids.contains place.uid then
        { row with recent := .integer 0, modSeq := .integer modSeq }
      else row }

/-- What a reset does to the database in one transaction. -/
def resetBatch (mailbox : MailboxId) (uids : List Uid) (modSeq : ModSeq) (store : Database.Store) :
    Except StoreError (RecentReset × Database) := do
  askRows store uids
  let (missing, alreadyApplied, changing) ←
    Database.Store.sortUids store.database mailbox (.integer modSeq) uids
  if changing.isEmpty then return ({ missing, alreadyApplied }, store.database)
  store.bindVariables (changing.length + 3)
  let db := resetColumns mailbox modSeq changing store.database
  let updated ← Database.Store.selectUids { store with database := db } mailbox changing .metadata
  return ({ updated := updated.map Message.metadata, alreadyApplied, missing }, db)

/-- A reset to a modification sequence that fits is one transaction. -/
theorem resetRecent_eq (mailbox : MailboxId) (nonempty : uids ≠ []) (fits : modSeq ≤ maxStored) :
    Database.Store.resetRecent mailbox uids modSeq
      = Database.Store.transaction (resetBatch mailbox uids modSeq) := by
  unfold Database.Store.resetRecent
  rw [if_neg (by rwa [List.isEmpty_iff]), Database.storable_of_le fits, Step.check_ok_bind]
  refine congrArg Database.Store.transaction (funext fun store => ?_)
  unfold resetBatch askRows
  by_cases empty : (Database.Store.storedUids uids).isEmpty = true
  · simp only [if_pos empty, Outcomes.ok_bind]
    rfl
  · simp only [if_neg empty, bind_assoc]
    rfl

namespace Mirrors

/-- The database sorts numbers by what their rows say in memory. -/
theorem sortUids_eq (mirrors : Mirrors regular log m d) :
    Database.Store.sortUids d.database mailbox (.integer modSeq) uids
      = .ok (missing m.rows mailbox uids, settled m.rows mailbox modSeq uids,
        pending m.rows mailbox modSeq uids) := by
  induction uids with
  | nil => rfl
  | cons uid rest ih =>
    unfold Database.Store.sortUids
    rw [ih, mirrors.get?_messages]
    cases found : m.rows.get? ⟨mailbox, uid⟩ with
    | none =>
      simp only [Outcomes.ok_bind, Option.map_none]
      simp [missing, settled, pending, found]
      rfl
    | some row =>
      have reads : (MessageRow.encode row).modSeq.readInteger = .ok (row.modSeq : Int) := rfl
      have same : Database.Cell.integer (row.modSeq : Int) = .integer modSeq
          ↔ row.modSeq = modSeq := by
        rw [Database.Cell.integer.injEq]
        exact Int.ofNat_inj
      simp only [Outcomes.ok_bind, Option.map_some, reads, same]
      by_cases settles : row.modSeq = modSeq
      · simp [missing, settled, pending, found, settles]
        rfl
      · simp [missing, settled, pending, found, settles]
        rfl

/-- The rows with ascending numbers, chosen from the table, come in the order of the numbers. -/
theorem chosen_values (ascending : uids.Pairwise (· < ·)) :
    (chosen m mailbox uids).values = rowsAt m.rows mailbox uids := by
  unfold chosen
  rw [Table.values, entries_filter_uids _ ascending fun entry _ => by
    rw [Bool.and_eq_true, decide_eq_true_eq, List.contains_iff_mem], List.map_filterMap, rowsAt]
  refine congrArg (List.filterMap · uids) (funext fun uid => ?_)
  cases m.rows.get? ⟨mailbox, uid⟩ <;> rfl

/-- Rows may be changed in both stores, if they keep their places and their keywords. -/
theorem mapRows (mirrors : Mirrors regular log m d) {f : Place → Message → Message}
    {g : Place → MessageRow → MessageRow} (images : ∀ place row, m.rows.get? place = some row →
      g place (.encode row) = .encode (f place row))
    (stored : ∀ place row, m.rows.get? place = some row → Stored place (f place row))
    (keywords : ∀ place row, (f place row).flags.keywords = row.flags.keywords)
    (plain : ∀ place row, row.HasPlainDates → (f place row).HasPlainDates) :
    Mirrors regular log { m with rows := m.rows.mapValues f }
      { d with database := { d.database with
          messages := d.database.messages.mapValues g } } :=
  { mirrors with
    messages := by
      show d.database.messages.mapValues g = _
      rw [mirrors.messages, Table.mapValues_mapValues, Table.mapValues_mapValues]
      exact Table.mapValues_congr fun entry member =>
        images entry.1 entry.2 (Table.get?_eq_some_iff.mpr member)
    keywords := fun place keyword => by
      refine (mirrors.keywords place keyword).trans ?_
      rw [Table.get?_mapValues]
      constructor
      · rintro ⟨row, found, has⟩
        exact ⟨f place row, by rw [found]; rfl, by rw [keywords]; exact has⟩
      · rintro ⟨_, found, has⟩
        obtain ⟨row, here, rfl⟩ := Option.map_eq_some_iff.mp found
        exact ⟨row, here, by rw [← keywords place]; exact has⟩
    stored := fun place row found => by
      rw [Table.get?_mapValues] at found
      obtain ⟨old, here, rfl⟩ := Option.map_eq_some_iff.mp found
      exact stored place old here
    readable := fun proper row member => by
      obtain ⟨place, found⟩ := Table.mem_values_iff.mp member
      rw [Table.get?_mapValues] at found
      obtain ⟨old, here, rfl⟩ := Option.map_eq_some_iff.mp found
      exact plain place old (mirrors.readable proper old (Table.mem_values_iff.mpr ⟨place, here⟩)) }

/-- Clearing a column and stamping it resets a row. -/
theorem reset_encode {row : Message} :
    { MessageRow.encode row with recent := .integer 0, modSeq := .integer modSeq }
      = .encode (reset modSeq row) := rfl

/-- The rows with some numbers may be reset in both stores. -/
theorem resetRows (mirrors : Mirrors regular log m d) (mailbox : MailboxId)
    (fits : modSeq ≤ maxStored) (uids : List Uid) :
    Mirrors regular log (resetStore m mailbox modSeq uids)
      { d with database := { d.database with
          messages := d.database.messages.mapValues fun place row =>
            if place.mailbox = mailbox && uids.contains place.uid then
              { row with recent := .integer 0, modSeq := .integer modSeq }
            else row } } := by
  refine mirrors.mapRows ?_ ?_ ?_ ?_
  · intro place row _
    simp only [Bool.and_eq_true, decide_eq_true_eq, List.contains_iff_mem, reset_encode, resetAt]
    split <;> rfl
  · intro place row found
    have stored := mirrors.stored place row found
    unfold resetAt
    split
    · exact ⟨stored.place_eq, stored.content_eq, stored.uid_le, fits, stored.size_le, stored.seconds⟩
    · exact stored
  · intro place row
    unfold resetAt
    split <;> simp [reset]
  · intro place row plain
    unfold resetAt
    split <;> exact plain

theorem resetRecent_memory (mirrors : Mirrors regular log m d) (mailbox : MailboxId)
    (fits : modSeq ≤ maxStored) (once : uids.Nodup) :
    m.resetRecent mailbox uids modSeq =
      .ok ({ updated := (rowsAt m.rows mailbox (pending m.rows mailbox modSeq uids)).map fun row =>
               (reset modSeq row).metadata
             alreadyApplied := settled m.rows mailbox modSeq uids
             missing := missing m.rows mailbox uids },
        resetStore m mailbox modSeq (pending m.rows mailbox modSeq uids)) := by
  unfold Memory.Store.resetRecent Memory.Store.checkStorable
  rw [if_pos fits, mirrors.ensureAvailable]
  simp only [Outcomes.ok_bind, resetEach_eq once]
  rfl

/-- The numbers to change are among those that the database can hold. -/
theorem length_pending_le (mirrors : Mirrors regular log m d) (mailbox : MailboxId)
    (modSeq : ModSeq) (uids : List Uid) :
    (pending m.rows mailbox modSeq uids).length ≤ (Database.Store.storedUids uids).length := by
  unfold pending Database.Store.storedUids
  rw [← List.countP_eq_length_filter, ← List.countP_eq_length_filter]
  refine List.countP_mono_left fun uid _ found => ?_
  obtain ⟨row, found, -⟩ := (Option.any_eq_true _ _).mp found
  exact decide_eq_true (mirrors.uid_le found)

/-- What a reset that has few enough numbers does to the database: nothing if no number is pending,
and else it changes the rows and reads them back. -/
theorem resetBatch_eq (mirrors : Mirrors regular log m d) (mailbox : MailboxId) (modSeq : ModSeq)
    (few : Database.Store.storedUids uids = [] ∨
      (Database.Store.storedUids uids).length + 1 ≤ maxVariables) :
    resetBatch mailbox uids modSeq d =
      if pending m.rows mailbox modSeq uids = [] then
        .ok ({ missing := missing m.rows mailbox uids
               alreadyApplied := settled m.rows mailbox modSeq uids }, d.database)
      else do
        d.bindVariables ((pending m.rows mailbox modSeq uids).length + 3)
        let db := resetColumns mailbox modSeq (pending m.rows mailbox modSeq uids) d.database
        let updated ← Database.Store.selectUids { d with database := db } mailbox
          (pending m.rows mailbox modSeq uids) .metadata
        return ({ updated := updated.map Message.metadata
                  alreadyApplied := settled m.rows mailbox modSeq uids
                  missing := missing m.rows mailbox uids }, db) := by
  have sorted : Database.Store.sortUids d.database mailbox (.integer modSeq) uids = _ :=
    mirrors.sortUids_eq
  have asked : askRows d uids = .ok () := by
    unfold askRows
    rcases few with nothing | few
    · rw [nothing]
      rfl
    · rw [mirrors.requireRelations, mirrors.bindVariables few]
      split <;> rfl
  unfold resetBatch
  rw [asked, sorted]
  simp only [Outcomes.ok_bind, List.isEmpty_iff]
  rfl

theorem resetBatch_eq_error (mirrors : Mirrors regular log m d) (mailbox : MailboxId)
    (modSeq : ModSeq) (nonempty : Database.Store.storedUids uids ≠ [])
    (many : maxVariables < (Database.Store.storedUids uids).length + 1) :
    resetBatch mailbox uids modSeq d
      = .error Database.EngineError.tooManyVariables.toStoreError := by
  have asked : askRows d uids = .error Database.EngineError.tooManyVariables.toStoreError := by
    unfold askRows
    rw [if_neg (by rwa [List.isEmpty_iff]), mirrors.requireRelations,
      mirrors.bindVariables_error many]
    rfl
  unfold resetBatch
  rw [asked]
  rfl

/-- The rows that are changed, as they are after that. -/
theorem chosen_reset (ascending : uids.Pairwise (· < ·)) :
    (chosen (resetStore m mailbox modSeq uids) mailbox uids).values
      = (rowsAt m.rows mailbox uids).map (reset modSeq) := by
  rw [chosen_values ascending]
  exact rowsAt_resetAt fun _ member => member

/-- What is read back after some rows were reset, if all of them have plain dates. -/
theorem selectReset_of_plain (mirrors : Mirrors regular log m d) (mailbox : MailboxId)
    (fits : modSeq ≤ maxStored) (ascending : uids.Pairwise (· < ·))
    (few : uids.length + 1 ≤ maxVariables)
    (plain : ∀ row ∈ rowsAt m.rows mailbox uids, row.HasPlainDates) :
    Database.Store.selectUids { d with database := resetColumns mailbox modSeq uids d.database }
        mailbox uids .metadata
      = .ok ((rowsAt m.rows mailbox uids).map (reset modSeq)) := by
  have after := mirrors.resetRows mailbox fits uids
  have changed : (chosen (resetStore m mailbox modSeq uids) mailbox uids).values = _ :=
    chosen_reset ascending
  have fewer : (Database.Store.storedUids uids).length ≤ uids.length := List.length_filter_le _ _
  have back := after.selectUids_of_plain .metadata (Nat.le_trans (Nat.succ_le_succ fewer) few) (by
    intro row member
    rw [changed] at member
    obtain ⟨old, here, rfl⟩ := List.mem_map.mp member
    exact plain old here)
  rw [changed] at back
  exact back.trans (congrArg Except.ok (List.map_id _))

/-- Nothing is read back if one of the rows that were reset has a date that cannot be read. -/
theorem selectReset_of_not_plain (mirrors : Mirrors regular log m d) (mailbox : MailboxId)
    (fits : modSeq ≤ maxStored) (ascending : uids.Pairwise (· < ·)) {row : Message}
    (member : row ∈ rowsAt m.rows mailbox uids) (signed : ¬ row.HasPlainDates) :
    ∃ e, Database.Store.selectUids
      { d with database := resetColumns mailbox modSeq uids d.database } mailbox uids .metadata
        = .error e := by
  have after := mirrors.resetRows mailbox fits uids
  have changed : (chosen (resetStore m mailbox modSeq uids) mailbox uids).values = _ :=
    chosen_reset ascending
  have signed : ¬ (reset modSeq row).HasPlainDates := signed
  refine after.selectUids_of_not_plain .metadata ?_ signed
  rw [changed]
  exact List.mem_map_of_mem member

/-- A reset does the same in both stores, unless it has too many numbers or meets a row with a date
that cannot be read. -/
theorem resetRecent_agreesUnless (mirrors : Mirrors regular log m d) (mailbox : MailboxId)
    (fits : modSeq ≤ maxStored) (ascending : uids.Pairwise (· < ·)) :
    AgreesUnless (maxVariables < (Database.Store.storedUids uids).length + 3 ∨
        ∃ row ∈ m.rows.values, ¬ row.HasPlainDates)
      regular log (Storage.resetRecent mailbox uids modSeq)
      (Storage.resetRecent mailbox uids modSeq) m d := by
  have inMemory := mirrors.resetRecent_memory mailbox fits
    (ascending.imp fun before => Nat.ne_of_lt before)
  show AgreesUnless _ regular log (.write (Memory.Store.resetRecent mailbox uids modSeq))
    (Database.Store.resetRecent mailbox uids modSeq) m d
  by_cases nothing : uids = []
  · subst nothing
    have inMemory : m.resetRecent mailbox [] modSeq = .ok ({}, m) := by
      rw [inMemory]
      show Except.ok (_, resetStore m mailbox modSeq []) = _
      rw [resetStore_nil]
      rfl
    exact .inl ⟨by rw [Step.write_of_ok inMemory]; rfl,
      by rw [Step.write_of_ok inMemory]; exact mirrors⟩
  rw [resetRecent_eq mailbox nothing fits]
  by_cases few : Database.Store.storedUids uids = [] ∨
    (Database.Store.storedUids uids).length + 1 ≤ maxVariables
  case neg =>
    obtain ⟨nonempty, many⟩ := not_or.mp few
    have fails := mirrors.resetBatch_eq_error mailbox modSeq nonempty (Nat.not_le.mp many)
    exact .inr ⟨.inl (by omega), mirrors.refuses_of_error fails⟩
  have batch := mirrors.resetBatch_eq mailbox modSeq few
  by_cases idle : pending m.rows mailbox modSeq uids = []
  · rw [idle, resetStore_nil] at inMemory
    rw [if_pos idle] at batch
    exact .inl (mirrors.agrees_of_ok inMemory batch mirrors)
  rw [if_neg idle] at batch
  have length := mirrors.length_pending_le mailbox modSeq uids
  by_cases few : (pending m.rows mailbox modSeq uids).length + 3 ≤ maxVariables
  case neg =>
    rw [mirrors.bindVariables_error (Nat.not_le.mp few), Outcomes.error_bind] at batch
    exact .inr ⟨.inl (by omega), mirrors.refuses_of_error batch⟩
  rw [mirrors.bindVariables few, Outcomes.ok_bind] at batch
  have sorted : (pending m.rows mailbox modSeq uids).Pairwise (· < ·) :=
    pending_ascending ascending
  by_cases plain : ∀ row ∈ rowsAt m.rows mailbox (pending m.rows mailbox modSeq uids),
    row.HasPlainDates
  · have back := mirrors.selectReset_of_plain mailbox fits sorted (by omega) plain
    simp only [back, Outcomes.ok_bind, List.map_map] at batch
    exact .inl (mirrors.agrees_of_ok inMemory batch (mirrors.resetRows mailbox fits _))
  · obtain ⟨row, here, signed⟩ : ∃ row ∈ rowsAt m.rows mailbox
        (pending m.rows mailbox modSeq uids), ¬ row.HasPlainDates := by
      simpa using plain
    obtain ⟨e, fails⟩ := mirrors.selectReset_of_not_plain mailbox fits sorted here signed
    simp only [fails, Outcomes.error_bind] at batch
    exact .inr ⟨.inr ⟨row, mem_values_of_rowsAt here, signed⟩, mirrors.refuses_of_error batch⟩

theorem resetRecent_agrees (mirrors : Mirrors regular log m d) (mailbox : MailboxId)
    (fits : modSeq ≤ maxStored) (ascending : uids.Pairwise (· < ·))
    (few : uids.length + 3 ≤ maxVariables) (plain : ∀ row ∈ m.rows.values, row.HasPlainDates) :
    Agrees regular log (Storage.resetRecent mailbox uids modSeq)
      (Storage.resetRecent mailbox uids modSeq) m d := by
  refine (mirrors.resetRecent_agreesUnless mailbox fits ascending).agrees ?_
  rintro (many | ⟨row, member, signed⟩)
  · have fewer : (Database.Store.storedUids uids).length ≤ uids.length := List.length_filter_le _ _
    omega
  · exact signed (plain row member)

theorem resetRecent_follows (mirrors : Mirrors False log m d) (mailbox : MailboxId)
    (fits : modSeq ≤ maxStored) (ascending : uids.Pairwise (· < ·)) :
    Follows False log (Storage.resetRecent mailbox uids modSeq)
      (Storage.resetRecent mailbox uids modSeq) m d :=
  (mirrors.resetRecent_agreesUnless mailbox fits ascending).follows

end Mirrors

end Mailroom.Mirror
