import Mailroom.Proofs.Mirror.Insert
import Mailroom.Proofs.Mirror.Reads
/-!
Writing flags in memory and in the database.

The database edits columns and keywords one by one, and then reads the rows back that it has
changed; so it fails where one of them has a date that cannot be read. `changed` says that the
edited rows are the images of the rows that memory writes.
-/

namespace Mailroom.Mirror

open Database (MessageRow)
open Memory (edited)

variable {regular : Prop} {log : Log} {m : Memory.Store} {d : Database.Store}

/-! ### Keywords -/

/-- The keywords of one message after an edit. -/
theorem editKeywords_eq (db : Database)
    (exist : Database.requireRelations db [.keywords] = .ok ()) (place : Place)
    (edit : KeywordEdit) {old : NameSet}
    (listed : ∀ keyword, (place, keyword) ∈ db.keywords ↔ keyword ∈ old) :
    ∃ keywords, Database.editKeywords db place edit = .ok { db with keywords } ∧
      (∀ keyword, (place, keyword) ∈ keywords ↔ keyword ∈ edit.apply old) ∧
      ∀ other keyword, other ≠ place →
        ((other, keyword) ∈ keywords ↔ (other, keyword) ∈ db.keywords) := by
  cases edit with
  | keep => exact ⟨db.keywords, rfl, listed, fun _ _ _ => Iff.rfl⟩
  | append added =>
    obtain ⟨keywords, done, inserted⟩ := insertKeywords_eq db exist place added
    refine ⟨keywords, done, fun keyword => ?_, fun other keyword different => ?_⟩
    · rw [inserted, listed, KeywordEdit.apply, NameSet.mem_union]
      simp
    · rw [inserted]
      simp [different]
  | remove removed =>
    refine ⟨_, by
      unfold Database.editKeywords
      rw [exist]
      rfl, fun keyword => ?_, fun other keyword different => ?_⟩
    · rw [List.mem_filter, listed, KeywordEdit.apply, NameSet.mem_diff]
      simp [NameSet.mem_toList]
    · rw [List.mem_filter]
      simp [different]
  | replace replacement =>
    obtain ⟨keywords, done, inserted⟩ := insertKeywords_eq
      { db with keywords := db.keywords.filter fun k => k.1 ≠ place } exist place replacement
    refine ⟨keywords, ?_, fun keyword => ?_, fun other keyword different => ?_⟩
    · unfold Database.editKeywords
      rw [exist]
      exact done
    · rw [inserted, List.mem_filter, KeywordEdit.apply]
      simp
    · rw [inserted, List.mem_filter]
      simp [different]

/-! ### Editing the flags of a row -/

/-- The assignments of an edit reach the columns of a row. -/
theorem encode_edited {edit : FlagEdit} {modSeq : ModSeq} {row : Message} :
    edit.assignments.foldl (fun row a => row.setFlag a.1 a.2)
        { MessageRow.encode row with modSeq := .integer modSeq }
      = .encode (edited edit modSeq row) :=
  MessageRow.foldl_setFlag_encode edit.assignments { row with modSeq }

/-- What an update does to the database in one transaction. -/
def updateRow (mailbox : MailboxId) (uid : Uid) (edit : FlagEdit) (modSeq : ModSeq)
    (expected : Option ModSeq) (store : Database.Store) :
    Except StoreError (Metadata × Database) := do
  Database.requireRelations store.database [.messages]
  match Database.Store.expectedRow? store.database ⟨mailbox, uid⟩ expected with
  | none =>
    throw (Database.Store.updateFailure mailbox uid expected
      (store.database.messages.get? ⟨mailbox, uid⟩))
  | some row =>
    let row := edit.assignments.foldl (fun row a => row.setFlag a.1 a.2)
      { row with modSeq := .integer modSeq }
    let db := { store.database with
      messages := store.database.messages.insert ⟨mailbox, uid⟩ row }
    let db ← Database.editKeywords db ⟨mailbox, uid⟩ edit.keywords
    match ← Database.Store.selectUids { store with database := db } mailbox [uid] .metadata with
    | message :: _ => return (message.metadata, db)
    | [] => throw (.notFound (.message mailbox uid))

/-- An update whose numbers fit is one transaction. -/
theorem updateFlags_eq (mailbox : MailboxId) {uid : Uid} {modSeq : ModSeq} (edit : FlagEdit)
    (expected : Option ModSeq) (fits : modSeq ≤ maxStored) (small : uid ≤ maxStored) :
    ∃ compiled, Database.Store.updateFlags mailbox uid edit modSeq expected d =
      Database.Store.transaction (updateRow mailbox uid edit modSeq expected)
        { d with isKeywordCompiled := compiled } := by
  have passed : Database.Store.updateFlags mailbox uid edit modSeq expected = (do
      Database.Store.compileKeyword fun db =>
        Database.Store.addsKeywords edit.keywords &&
          (Database.Store.expectedRow? db ⟨mailbox, uid⟩ expected).isSome
      Database.Store.transaction (updateRow mailbox uid edit modSeq expected)) := by
    unfold Database.Store.updateFlags
    rw [Database.storable_of_le fits, Step.check_ok_bind, if_neg (Nat.not_lt.mpr small)]
    rfl
  exact ⟨_, (congrFun passed d).trans rfl⟩

namespace Mirrors

variable {mailbox : MailboxId} {uid : Uid} {edit : FlagEdit} {modSeq : ModSeq}
  {expected : Option ModSeq} {row : Message}

/-- A row with the modification sequence that is expected is found in the database. -/
theorem expectedRow?_eq (mirrors : Mirrors regular log m d) {place : Place}
    (found : m.rows.get? place = some row) :
    Database.Store.expectedRow? d.database place expected
      = if ∀ e ∈ expected, row.modSeq = e then some (.encode row) else none := by
  unfold Database.Store.expectedRow?
  rw [mirrors.get?_messages, found]
  cases expected with
  | none => rfl
  | some e =>
    have same : (MessageRow.encode row).modSeq = .integer e ↔ row.modSeq = e := by
      show Database.Cell.integer row.modSeq = .integer e ↔ _
      rw [Database.Cell.integer.injEq]
      exact Int.ofNat_inj
    simp [Option.filter, same]

/-- The only row with one number. -/
theorem chosen_singleton (found : m.rows.get? ⟨mailbox, uid⟩ = some row) :
    (chosen m mailbox [uid]).values = [row] := by
  have same : chosen m mailbox [uid]
      = m.rows.filter fun other _ => decide (other = ⟨mailbox, uid⟩) := by
    refine Table.filter_congr fun entry _ => ?_
    rcases entry with ⟨⟨mailbox', uid'⟩, _⟩
    simp
  rw [same, values_filter_place, found]
  rfl

/-- Editing a row that has the modification sequence that is expected: it is written, and then read
back from the database as it is after that. -/
theorem updateRow_eq (mirrors : Mirrors regular log m d) (fits : modSeq ≤ maxStored)
    (found : m.rows.get? ⟨mailbox, uid⟩ = some row) (meets : ∀ e ∈ expected, row.modSeq = e) :
    ∃ db, Mirrors regular log
      { m with rows := m.rows.insert ⟨mailbox, uid⟩ (edited edit modSeq row) }
        { d with database := db } ∧
      updateRow mailbox uid edit modSeq expected d =
        ({ d with database := db }).selectUids mailbox [uid] .metadata >>= fun
          | message :: _ => .ok (message.metadata, db)
          | [] => .error (.notFound (.message mailbox uid)) := by
  have stored := mirrors.stored _ _ found
  have listed (keyword : String) : (⟨mailbox, uid⟩, keyword) ∈ d.database.keywords ↔
      keyword ∈ row.flags.keywords := by
    rw [mirrors.keywords, found]
    simp
  obtain ⟨keywords, done, here, elsewhere⟩ := editKeywords_eq
    { d.database with
      messages := d.database.messages.insert ⟨mailbox, uid⟩ (.encode (edited edit modSeq row)) }
    (mirrors.requireRelations _) ⟨mailbox, uid⟩ edit.keywords listed
  refine ⟨_, mirrors.setRow ⟨mailbox, uid⟩ (edited edit modSeq row)
    ⟨stored.place_eq, stored.content_eq, stored.uid_le, fits, stored.size_le, stored.seconds⟩
    (fun proper => mirrors.readable proper row (Table.mem_values_iff.mpr ⟨_, found⟩))
    here elsewhere, ?_⟩
  unfold updateRow
  simp only [mirrors.requireRelations, mirrors.expectedRow?_eq found, if_pos meets,
    Outcomes.ok_bind, encode_edited, done]
  rfl

/-- An update that meets no row fails as in memory. -/
theorem updateRow_eq_error (mirrors : Mirrors regular log m d) (fits : modSeq ≤ maxStored)
    (unmet : ∀ row ∈ m.rows.get? ⟨mailbox, uid⟩, ¬ ∀ e ∈ expected, row.modSeq = e) :
    ∃ e, m.updateFlags mailbox uid edit modSeq expected = .error e ∧
      updateRow mailbox uid edit modSeq expected d = .error e := by
  unfold Memory.Store.updateFlags Memory.Store.checkStorable updateRow
  rw [if_pos fits, mirrors.ensureAvailable, mirrors.requireRelations]
  cases found : m.rows.get? ⟨mailbox, uid⟩ with
  | none =>
    refine ⟨.notFound (.message mailbox uid), ?_, ?_⟩
    · rfl
    · simp only [Database.Store.expectedRow?, mirrors.get?_messages, found]
      rfl
  | some row =>
    have unmet := unmet row found
    cases expected with
    | none => exact absurd (by simp) unmet
    | some e =>
      have different : row.modSeq ≠ e := fun same => unmet (by simpa using same)
      refine ⟨.modSeqConflict mailbox uid e row.modSeq, ?_, ?_⟩
      · simp only [if_pos different]
        rfl
      · simp only [mirrors.expectedRow?_eq found, if_neg unmet, mirrors.get?_messages, found]
        rfl

/-- An update does the same in both stores, unless it meets a row with a date that cannot be read.
-/
theorem updateFlags_agreesUnless (mirrors : Mirrors regular log m d) (mailbox : MailboxId)
    (uid : Uid) (edit : FlagEdit) (modSeq : ModSeq) (expected : Option ModSeq) :
    AgreesUnless (∃ row ∈ m.rows.get? ⟨mailbox, uid⟩, ¬ row.HasPlainDates) regular log
      (Storage.updateFlags mailbox uid edit modSeq expected)
      (Storage.updateFlags mailbox uid edit modSeq expected) m d := by
  show AgreesUnless _ regular log
    (.write (Memory.Store.updateFlags mailbox uid edit modSeq expected))
    (Database.Store.updateFlags mailbox uid edit modSeq expected) m d
  by_cases fits : modSeq ≤ maxStored
  case neg =>
    have left : m.updateFlags mailbox uid edit modSeq expected
        = .error (.invalidInput (.tooGreat .modSeq modSeq)) := by
      unfold Memory.Store.updateFlags Memory.Store.checkStorable
      rw [if_neg fits]
      rfl
    refine .inl (mirrors.agrees_of_fail left ?_)
    unfold Database.Store.updateFlags
    rw [Database.storable_of_gt (Nat.not_le.mp fits), Step.check_error_bind]
  by_cases small : uid ≤ maxStored
  case neg =>
    have absent : m.rows.get? ⟨mailbox, uid⟩ = none := by
      cases found : m.rows.get? ⟨mailbox, uid⟩ with
      | none => rfl
      | some row => exact absurd (mirrors.uid_le found) small
    have left : m.updateFlags mailbox uid edit modSeq expected
        = .error (.notFound (.message mailbox uid)) := by
      unfold Memory.Store.updateFlags Memory.Store.checkStorable
      rw [if_pos fits, mirrors.ensureAvailable]
      simp only [Outcomes.ok_bind, absent]
      rfl
    refine .inl (mirrors.agrees_of_fail left ?_)
    unfold Database.Store.updateFlags
    rw [Database.storable_of_le fits, Step.check_ok_bind, if_pos (Nat.not_le.mp small)]
  obtain ⟨compiled, right⟩ := updateFlags_eq (d := d) mailbox edit expected fits small
  have compiledMirrors := mirrors.compiled compiled
  by_cases met : ∃ row ∈ m.rows.get? ⟨mailbox, uid⟩, ∀ e ∈ expected, row.modSeq = e
  case neg =>
    obtain ⟨e, left, fails⟩ := compiledMirrors.updateRow_eq_error fits
      fun row found meets => met ⟨row, found, meets⟩
    exact .inl ((compiledMirrors.agrees_of_error left fails).of_eq right)
  obtain ⟨row, found, meets⟩ := met
  obtain ⟨db, after, done⟩ := compiledMirrors.updateRow_eq fits found meets
  have written : (chosen { m with
      rows := m.rows.insert ⟨mailbox, uid⟩ (edited edit modSeq row) } mailbox [uid]).values
        = [edited edit modSeq row] := chosen_singleton Table.get?_insert_self
  have few : (Database.Store.storedUids [uid]).length + 1 ≤ maxVariables :=
    Nat.le_trans (Nat.succ_le_succ (List.length_filter_le _ _)) (Nat.le_of_ble_eq_true rfl)
  by_cases plain : row.HasPlainDates
  · have back := after.selectUids_of_plain .metadata few (by
      rw [written]
      intro row' member
      cases List.mem_singleton.mp member
      exact plain)
    rw [written] at back
    rw [back] at done
    have on := Memory.Store.ensureAvailable_ok.mp mirrors.ensureAvailable
    have inMemory := Memory.Store.updateFlags_of_found edit on fits found meets
    exact .inl ((compiledMirrors.agrees_of_ok inMemory done after).of_eq right)
  · have member : edited edit modSeq row ∈ (chosen { m with
        rows := m.rows.insert ⟨mailbox, uid⟩ (edited edit modSeq row) } mailbox [uid]).values := by
      rw [written]
      exact List.mem_singleton_self _
    obtain ⟨e, fails⟩ := after.selectUids_of_not_plain .metadata member plain
    rw [fails] at done
    exact .inr ⟨⟨row, found, plain⟩, (compiledMirrors.refuses_of_error done).of_eq right⟩

theorem updateFlags_agrees (mirrors : Mirrors regular log m d)
    (plain : ∀ row ∈ m.rows.get? ⟨mailbox, uid⟩, row.HasPlainDates) :
    Agrees regular log (Storage.updateFlags mailbox uid edit modSeq expected)
      (Storage.updateFlags mailbox uid edit modSeq expected) m d :=
  (mirrors.updateFlags_agreesUnless mailbox uid edit modSeq expected).agrees
    fun ⟨row, found, signed⟩ => signed (plain row found)

theorem updateFlags_follows (mirrors : Mirrors False log m d) (mailbox : MailboxId) (uid : Uid)
    (edit : FlagEdit) (modSeq : ModSeq) (expected : Option ModSeq) :
    Follows False log (Storage.updateFlags mailbox uid edit modSeq expected)
      (Storage.updateFlags mailbox uid edit modSeq expected) m d :=
  (mirrors.updateFlags_agreesUnless mailbox uid edit modSeq expected).follows

end Mirrors

end Mailroom.Mirror
