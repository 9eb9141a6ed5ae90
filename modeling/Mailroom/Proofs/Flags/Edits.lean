import Mailroom.Proofs.Listings.Lookups
import Mailroom.Proofs.Mirror.FlagWrites
/-!
Three ways to change flags.

A client asks with an update, which computes with whole sets of flags. A store is given an edit:
assignments to single system flags, of which the last one to a flag counts, and one change of the
keywords. The database carries an edit out column by column and keyword by keyword. All three agree:
the edit of an update is the update (`FlagEdit.ofUpdate_apply`), and a row that either store has
edited is read as the edit of what was read there before, whatever the edit and whatever else is
stored (`Memory.Store.updateFlags_edits`, `Database.Store.updateFlags_edits`).
-/

namespace Mailroom

open Service

variable {σ : Type}

/-- Of the steps that decide what is read, the last one counts. -/
theorem read_foldl {α β γ : Type} {step : β → α → β} (read : β → γ) {decides : α → Bool}
    {value : α → γ} (reads : ∀ b a, read (step b a) = if decides a then value a else read b)
    (steps : List α) (start : β) : read (steps.foldl step start)
      = ((steps.filter decides).getLast?.map value).getD (read start) := by
  induction steps generalizing start with
  | nil => rfl
  | cons a rest ih =>
    rw [List.foldl_cons, ih, reads, List.filter_cons]
    by_cases here : decides a = true
    · rw [if_pos here, if_pos here, List.getLast?_cons]
      cases (rest.filter decides).getLast? <;> rfl
    · rw [if_neg here, if_neg here]

/-! ### Edits of flags -/

namespace FlagEdit

variable {edit : FlagEdit} {flag other : SystemFlag} {value : Bool} {old : Flags}

/-- Of the assignments to one flag, the last one counts. -/
theorem get_apply : (edit.apply old).get flag
    = ((edit.assignments.filter (·.1 = flag)).getLast?.map Prod.snd).getD (old.get flag) := by
  have reads (flags : Flags) (a : SystemFlag × Bool) :
      (flags.set a.1 a.2).get flag = if decide (a.1 = flag) then a.2 else flags.get flag := by
    simp only [Flags.get_set, decide_eq_true_eq]
    exact if_congr eq_comm rfl rfl
  refine Eq.trans ?_ (read_foldl (fun flags : Flags => flags.get flag) reads edit.assignments old)
  cases flag <;> rfl

theorem keywords_apply : (edit.apply old).keywords = edit.keywords.apply old.keywords := rfl

/-- An assignment decides its flag and leaves the others to the edit. -/
theorem get_apply_assign : ((edit.assign flag value).apply old).get other
    = if other = flag then value else (edit.apply old).get other := by
  rw [get_apply, get_apply, assign, List.filter_append, List.filter_filter]
  by_cases here : other = flag
  · subst here
    simp
  · have elsewhere : ∀ a ∈ edit.assignments,
        (decide (a.1 = other) && decide (a.1 ≠ flag)) = decide (a.1 = other) := by
      intro a _
      by_cases same : a.1 = other
      · simp [same, here]
      · simp [same]
    rw [if_neg here, List.filter_congr elsewhere]
    simp [Ne.symm here]

theorem get_apply_assignAll (flags : List SystemFlag) (value : SystemFlag → Bool) :
    ((edit.assignAll flags value).apply old).get flag
      = if flag ∈ flags then value flag else (edit.apply old).get flag := by
  induction flags generalizing edit with
  | nil => rfl
  | cons first rest ih =>
    show ((assignAll (edit.assign first (value first)) rest value).apply old).get flag = _
    rw [ih, get_apply_assign]
    by_cases later : flag ∈ rest
    · simp [later]
    · by_cases here : flag = first
      · subst here
        simp [later]
      · simp [later, here]

/-- Leaving out a change of no keyword makes no difference. -/
theorem apply_editUnlessEmpty {change : NameSet → KeywordEdit} {keywords old : NameSet}
    (idle : (change .empty).apply old = old) :
    (editUnlessEmpty change keywords).apply old = (change keywords).apply old := by
  unfold editUnlessEmpty
  split
  · rename_i nothing
    have empty : keywords = .empty := NameSet.ext fun name => by
      rw [← NameSet.mem_toList, List.isEmpty_iff.mp nothing]
      simp
    rw [empty, idle]
    rfl
  · rfl

/-- The edit of an update does what the update does. -/
theorem ofUpdate_apply (update : FlagUpdate) (old : Flags) :
    (ofUpdate update).apply old = update.apply old := by
  obtain ⟨flags, mode⟩ := update
  have named (flag : SystemFlag) : flag ∈ flags.system ↔ flags.get flag = true := by
    rw [Flags.system, List.mem_filter, and_iff_right (SystemFlag.mem_all flag)]
  cases mode with
  | replace =>
    refine Flags.ext_get (fun flag => ?_) ?_
    · show ((nothing.assignAll SystemFlag.all flags.get).apply old).get flag = flags.get flag
      rw [get_apply_assignAll, if_pos (SystemFlag.mem_all flag)]
    · rw [keywords_apply]
      rfl
  | add =>
    refine Flags.ext_get (fun flag => ?_) ?_
    · show ((nothing.assignAll flags.system fun _ => true).apply old).get flag
        = (old.union flags).get flag
      rw [get_apply_assignAll, Flags.get_union]
      by_cases here : flags.get flag = true
      · rw [if_pos ((named flag).mpr here), here, Bool.or_true]
      · rw [if_neg (mt (named flag).mp here), Bool.eq_false_iff.mpr here, Bool.or_false]
        rfl
    · exact apply_editUnlessEmpty (NameSet.ext fun name => by simp [KeywordEdit.apply])
  | remove =>
    refine Flags.ext_get (fun flag => ?_) ?_
    · show ((nothing.assignAll flags.system fun _ => false).apply old).get flag
        = (old.diff flags).get flag
      rw [get_apply_assignAll, Flags.get_diff]
      by_cases here : flags.get flag = true
      · rw [if_pos ((named flag).mpr here), here, Bool.not_true, Bool.and_false]
      · rw [if_neg (mt (named flag).mp here), Bool.eq_false_iff.mpr here, Bool.not_false,
          Bool.and_true]
        rfl
    · exact apply_editUnlessEmpty (NameSet.ext fun name => by simp [KeywordEdit.apply])

end FlagEdit

/-! ### Edits of rows -/

open Memory (edited)

/-- What an update of flags answers and leaves, told of the row as it was read before. The row is
stored with the edited flags and the modification sequence, and is otherwise as it was; no other
row and no counter is touched. -/
structure EditsExactly [Storage σ] [Kept σ] (edit : FlagEdit) (modSeq : ModSeq) (place : Place)
    (row : Message) (store : σ) (metadata : Metadata) (after : σ) : Prop where
  answered : metadata = { row.metadata with flags := edit.apply row.flags, modSeq }
  stored : ∀ fetch, lookUp fetch after place
    = Option.map (edited edit modSeq) <$> lookUp fetch store place
  others : LeavesOthers (· = place) store after
  counters : Kept.countersOf after = Kept.countersOf store

/-- A store in which a row that can be read is updated with any edit as the edit says, whenever the
update succeeds. -/
class Edits (σ : Type) [Storage σ] [Kept σ] : Prop where
  updateFlags : ∀ {edit : FlagEdit} {modSeq : ModSeq} {expected : Option ModSeq} {place : Place}
    {row : Message} {metadata : Metadata} {store after : σ},
    lookUp .metadata store place = .ok (some row) →
    Storage.updateFlags place.mailbox place.uid edit modSeq expected store = (.ok metadata, after) →
    EditsExactly edit modSeq place row store metadata after

section Rows

variable {place : Place} {edit : FlagEdit} {modSeq : ModSeq} {expected : Option ModSeq}
  {row : Message} {metadata : Metadata}

/-! ### In memory -/

namespace Memory.Store

variable {m after : Store}

/-- An update of a row in memory that succeeds is the edit. -/
theorem updateFlags_edits (read : lookUp .metadata m place = .ok (some row))
    (done : Storage.updateFlags place.mailbox place.uid edit modSeq expected m
      = (.ok metadata, after)) : EditsExactly edit modSeq place row m metadata after := by
  have on := available_of_lookUp read
  rw [lookUp_eq on] at read
  obtain ⟨found_row, found, rfl⟩ := Option.map_eq_some_iff.mp (Except.ok.inj read)
  obtain ⟨-, row, found', -, rfl, rfl⟩ := updateFlags_ok (Step.of_write_eq_ok done)
  obtain rfl : row = found_row := Option.some.inj (found'.symm.trans found)
  have elsewhere (other : Place) (apart : other ≠ place) :
      (m.rows.insert place (edited edit modSeq row)).get? other = m.rows.get? other :=
    Table.get?_insert.trans (if_neg (Ne.symm apart))
  refine ⟨rfl, fun fetch => ?_, ⟨elsewhere, fun other apart fetch => ?_⟩, rfl⟩
  · have on' : { m with
        rows := m.rows.insert place (edited edit modSeq row) }.available = true := on
    rw [lookUp_eq on, found, lookUp_eq on', Table.get?_insert_self]
    cases fetch <;> rfl
  · exact lookUp_congr rfl (elsewhere other apart) fun _ _ => rfl

instance : Edits Store := ⟨updateFlags_edits⟩

/-- An update of a row in memory succeeds if its numbers can be stored and the row has the
modification sequence that is expected. -/
theorem updateFlags_succeeds (read : lookUp .metadata m place = .ok (some row))
    (fits : modSeq ≤ maxStored) (meets : ∀ e ∈ expected, row.modSeq = e) :
    ∃ metadata after, Storage.updateFlags place.mailbox place.uid edit modSeq expected m
      = (.ok metadata, after) := by
  have on := available_of_lookUp read
  rw [lookUp_eq on] at read
  obtain ⟨row, found, rfl⟩ := Option.map_eq_some_iff.mp (Except.ok.inj read)
  exact ⟨_, _, Step.write_of_ok (updateFlags_of_found edit on fits found meets)⟩

end Memory.Store

/-! ### In the database -/

namespace Database

variable {db after : Database} {flags : Flags} {stored : MessageRow} {values : MessageValues}

/-- The columns of a row after an edit. -/
def MessageRow.editColumns (edit : FlagEdit) (modSeq : ModSeq) (row : MessageRow) : MessageRow :=
  edit.assignments.foldl (fun row a => row.setFlag a.1 a.2) { row with modSeq := .integer modSeq }

theorem MessageRow.Holds.setFlag {flag : SystemFlag} {value : Bool}
    (holds : stored.Holds (values.change flags modSeq)) :
    (stored.setFlag flag value).Holds (values.change (flags.set flag value) modSeq) := by
  cases flag with
  | answered => exact { holds with answered := readFlag_ofBool }
  | deleted => exact { holds with deleted := readFlag_ofBool }
  | draft => exact { holds with draft := readFlag_ofBool }
  | flagged => exact { holds with flagged := readFlag_ofBool }
  | recent => exact { holds with recent := readFlag_ofBool }
  | seen => exact { holds with seen := readFlag_ofBool }

/-- Assigning to columns assigns to the flags in them. -/
theorem MessageRow.Holds.editColumns (holds : stored.Holds values) (edit : FlagEdit)
    (modSeq : ModSeq) (keywords : NameSet) : (stored.editColumns edit modSeq).Holds
      (values.change (edit.apply (values.revision keywords).flags) modSeq) := by
  have assigned (assignments : List (SystemFlag × Bool)) {flags : Flags} {stored : MessageRow}
      (holds : stored.Holds (values.change flags modSeq)) :
      (assignments.foldl (fun row a => row.setFlag a.1 a.2) stored).Holds
        (values.change (assignments.foldl (fun flags a => flags.set a.1 a.2) flags) modSeq) := by
    induction assignments generalizing flags stored with
    | nil => exact holds
    | cons a rest ih => exact ih holds.setFlag
  have stamped : MessageRow.Holds { stored with modSeq := .integer modSeq }
      (values.change (values.revision keywords).flags modSeq) := { holds with modSeq := rfl }
  exact assigned edit.assignments stamped

/-- A database with an edited row, and with the keywords that are given. -/
def withEdited (db : Database) (place : Place) (stored : MessageRow) (edit : FlagEdit)
    (modSeq : ModSeq) (keywords : List (Place × String)) : Database :=
  { db with messages := db.messages.insert place (stored.editColumns edit modSeq), keywords }

/-- A row that can be read is read after an edit as the edit of what it was read as. -/
theorem readEntry_edit (read : readEntry db .metadata (place, stored) = .ok row)
    {keywords : List (Place × String)} (here : ∀ keyword,
      (place, keyword) ∈ keywords ↔ keyword ∈ edit.keywords.apply (keywordsAt db place))
    (fetch : Fetch) : readEntry (db.withEdited place stored edit modSeq keywords) fetch
        (place, stored.editColumns edit modSeq)
      = edited edit modSeq <$> readEntry db fetch (place, stored) := by
  rw [readEntry_eq] at read ⊢
  obtain ⟨values, typed, read⟩ := Outcomes.bind_eq_ok.mp read
  have flags := (MessageValues.of_read_eq_ok read).flags_eq
  have changed : (stored.editColumns edit modSeq).values = .ok (values.change
      (edit.apply row.flags) modSeq) := by
    rw [flags]
    exact MessageRow.values_eq_ok.mpr
      ((MessageRow.values_eq_ok.mp typed).editColumns edit modSeq _)
  have listed : keywordsAt (db.withEdited place stored edit modSeq keywords) place
      = (edit.apply row.flags).keywords := by
    rw [flags]
    exact NameSet.ext fun keyword => mem_keywordsAt.trans (here keyword)
  rw [changed, readEntry_eq, typed, Outcomes.ok_bind, Outcomes.ok_bind, listed,
    MessageValues.read_change read, MessageValues.read_content read]
  cases fetch with
  | metadata => rfl
  | full =>
    show _ <$> readContent (db.contents.get? values.messageId) = _
    cases readContent (db.contents.get? values.messageId) <;> rfl

namespace Store

variable {d : Store}

/-- Relations that exist with others exist by themselves. -/
theorem requireRelations_of_subset {relations : List Relation}
    (exist : requireRelations db relations = .ok ()) (fewer : List Relation)
    (among : fewer ⊆ relations) : requireRelations db fewer = .ok () := by
  unfold requireRelations at exist ⊢
  have all : relations.find? (fun relation => db.missing.contains relation) = none := by
    split at exist
    · cases exist
    · assumption
  have some_fewer : fewer.find? (fun relation => db.missing.contains relation) = none :=
    List.find?_eq_none.mpr fun relation member => List.find?_eq_none.mp all _ (among member)
  rw [some_fewer]

/-- What is known of a database in which a row can be read. -/
theorem of_lookUp (read : lookUp .metadata d place = .ok (some row)) :
    place.uid ≤ maxStored ∧ requireRelations d.database (readRelations .metadata) = .ok () ∧
      ∃ stored, d.database.messages.get? place = some stored ∧
        readEntry d.database .metadata (place, stored) = .ok row := by
  rw [lookUp_eq] at read
  split at read
  · cases read
  rename_i small
  obtain ⟨_, exist, read⟩ := Outcomes.bind_eq_ok.mp read
  refine ⟨Nat.not_lt.mp small, exist, ?_⟩
  cases found : d.database.messages.get? place with
  | none =>
    rw [found] at read
    cases read
  | some stored =>
    rw [found] at read
    refine ⟨stored, rfl, ?_⟩
    have read : some <$> readEntry d.database .metadata (place, stored) = .ok (some row) := read
    cases entry : readEntry d.database .metadata (place, stored) with
    | error e =>
      rw [entry] at read
      cases read
    | ok message =>
      rw [entry] at read
      cases read
      rfl

theorem lookUp_of_found {fetch : Fetch} (small : place.uid ≤ maxStored)
    (found : d.database.messages.get? place = some stored) : lookUp fetch d place =
      requireRelations d.database (readRelations fetch) >>= fun _ =>
        some <$> readEntry d.database fetch (place, stored) := by
  rw [lookUp_eq, if_neg (Nat.not_lt.mpr small), found]
  rfl

/-- A row is found if it has the modification sequence that is expected. -/
theorem expectedRow?_eq (found : d.database.messages.get? place = some stored)
    (read : readEntry d.database .metadata (place, stored) = .ok row) (expected : Option ModSeq) :
    expectedRow? d.database place expected
      = if ∀ e ∈ expected, row.modSeq = e then some stored else none := by
  rw [readEntry_eq] at read
  obtain ⟨values, typed, read⟩ := Outcomes.bind_eq_ok.mp read
  have stamp := Cell.readInteger_eq_ok.mp (MessageRow.values_eq_ok.mp typed).modSeq
  rw [← (MessageValues.of_read_eq_ok read).modSeq_eq] at stamp
  unfold expectedRow?
  rw [found]
  cases expected with
  | none => rfl
  | some e =>
    have same : stored.modSeq = .integer e ↔ row.modSeq = e := by
      rw [stamp, Cell.integer.injEq, Int.ofNat_inj]
    simp [Option.filter, same]

/-- The rows with a single number are at most one. -/
theorem selectUids_single (small : place.uid ≤ maxStored)
    (exist : requireRelations d.database (readRelations .metadata) = .ok ()) :
    d.selectUids place.mailbox [place.uid] .metadata = d.bindVariables 2 >>= fun _ =>
      Option.toList <$> (d.database.messages.get? place).mapM fun row =>
        readEntry d.database .metadata (place, row) := by
  have listed : storedUids [place.uid] = [place.uid] :=
    List.filter_eq_self.mpr fun uid member => by simpa using List.mem_singleton.mp member ▸ small
  have chosen : (fun (other : Place) (_ : MessageRow) =>
      decide (other.mailbox = place.mailbox) && [place.uid].contains other.uid)
        = fun other _ => decide (other = place) := by
    funext other _
    obtain ⟨mailbox, uid⟩ := other
    obtain ⟨mailbox', uid'⟩ := place
    simp
  unfold selectUids
  rw [← selectMessages_place exist, listed, ← chosen]
  rfl

/-- A row that is found is written with the edit, and read back. -/
theorem updateRow_of_found (exist : requireRelations d.database [.messages] = .ok ())
    (found : expectedRow? d.database place expected = some stored) :
    Mirror.updateRow place.mailbox place.uid edit modSeq expected d =
      Database.editKeywords { d.database with
          messages := d.database.messages.insert place (stored.editColumns edit modSeq) }
        place edit.keywords >>= fun db =>
          ({ d with database := db } : Store).selectUids place.mailbox [place.uid] .metadata
            >>= fun
              | message :: _ => .ok (message.metadata, db)
              | [] => .error (.notFound (.message place.mailbox place.uid)) := by
  unfold Mirror.updateRow
  rw [exist, found]
  rfl

/-- What the transaction of an update does to a row that can be read. -/
theorem updateRow_eq (small : place.uid ≤ maxStored)
    (exist : requireRelations d.database (readRelations .metadata) = .ok ())
    (found : d.database.messages.get? place = some stored)
    (read : readEntry d.database .metadata (place, stored) = .ok row)
    (edit : FlagEdit) (modSeq : ModSeq) (expected : Option ModSeq) :
    ∃ keywords, (∀ keyword, (place, keyword) ∈ keywords ↔
        keyword ∈ edit.keywords.apply (keywordsAt d.database place)) ∧
      Mirror.updateRow place.mailbox place.uid edit modSeq expected d =
        if ∀ e ∈ expected, row.modSeq = e then
          d.bindVariables 2 >>= fun _ => .ok ((edited edit modSeq row).metadata,
            d.database.withEdited place stored edit modSeq keywords)
        else .error (updateFailure place.mailbox place.uid expected (some stored)) := by
  have messages := requireRelations_of_subset exist [.messages] (by simp [readRelations])
  have relation := requireRelations_of_subset exist [.keywords] (by simp [readRelations])
  obtain ⟨keywords, done, here, -⟩ := Mirror.editKeywords_eq
    { d.database with
      messages := d.database.messages.insert place (stored.editColumns edit modSeq) }
    relation place edit.keywords fun keyword => mem_keywordsAt.symm
  refine ⟨keywords, here, ?_⟩
  have decided := expectedRow?_eq found read expected
  by_cases meets : ∀ e ∈ expected, row.modSeq = e
  · have back : ({ d with
          database := d.database.withEdited place stored edit modSeq keywords } : Store).selectUids
            place.mailbox [place.uid] .metadata
        = d.bindVariables 2 >>= fun _ => .ok [edited edit modSeq row] := by
      refine (selectUids_single small ?_).trans ?_
      · exact exist
      have inserted : (d.database.withEdited place stored edit modSeq keywords).messages.get? place
          = some (stored.editColumns edit modSeq) := Table.get?_insert_self
      rw [inserted, Option.mapM_some, readEntry_edit read here, read]
      rfl
    rw [if_pos meets] at decided ⊢
    rw [updateRow_of_found messages decided, done, Outcomes.ok_bind]
    show selectUids { d with
      database := d.database.withEdited place stored edit modSeq keywords } _ _ _ >>= _ = _
    rw [back]
    cases d.bindVariables 2 <;> rfl
  · rw [if_neg meets] at decided ⊢
    unfold Mirror.updateRow
    rw [messages, decided, found]
    rfl

/-- An update of a row in the database that succeeds is the edit. -/
theorem updateFlags_edits {after : Store} (read : lookUp .metadata d place = .ok (some row))
    (done : Storage.updateFlags place.mailbox place.uid edit modSeq expected d
      = (.ok metadata, after)) : EditsExactly edit modSeq place row d metadata after := by
  obtain ⟨small, exist, stored, found, entry⟩ := of_lookUp read
  have confined : Confined (· = place) d after := by
    have step := updateFlags_confined place.mailbox place.uid edit modSeq expected d
    rwa [show updateFlags place.mailbox place.uid edit modSeq expected d = _ from done] at step
  have fits : modSeq ≤ maxStored := by
    by_contra great
    change updateFlags place.mailbox place.uid edit modSeq expected d = _ at done
    unfold updateFlags at done
    rw [storable_of_gt (Nat.not_le.mp great), Step.check_error_bind] at done
    cases done
  obtain ⟨compiled, opened⟩ := Mirror.updateFlags_eq place.mailbox edit expected fits small (d := d)
  obtain ⟨db, written, rfl⟩ := transaction_ok (opened.symm.trans done)
  obtain ⟨keywords, here, outcome⟩ := updateRow_eq (d := { d with isKeywordCompiled := compiled })
    small exist found entry edit modSeq expected
  rw [outcome] at written
  split at written
  case isFalse => cases written
  obtain ⟨_, -, written⟩ := Outcomes.bind_eq_ok.mp written
  cases written
  refine ⟨rfl, fun fetch => ?_, ⟨confined.rows, fun other apart fetch => ?_⟩, confined.counters⟩
  · rw [lookUp_of_found small found, lookUp_of_found small Table.get?_insert_self]
    show requireRelations d.database (readRelations fetch) >>= _ = _
    cases requireRelations d.database (readRelations fetch) with
    | error _ => rfl
    | ok _ =>
      rw [Outcomes.ok_bind, Outcomes.ok_bind, readEntry_edit entry here fetch]
      cases readEntry d.database fetch (place, stored) <;> rfl
  · exact lookUp_congr rfl (confined.rows other apart) fun _ _ => rfl

instance : Edits Store := ⟨updateFlags_edits⟩

/-- An update of a row in the database succeeds if its numbers can be stored, the row has the
modification sequence that is expected, and the row can be asked for. -/
theorem updateFlags_succeeds (read : lookUp .metadata d place = .ok (some row))
    (unlocked : d.lockedOut = false) (room : 2 ≤ d.variableLimit)
    (fits : modSeq ≤ maxStored) (meets : ∀ e ∈ expected, row.modSeq = e) :
    ∃ metadata after, Storage.updateFlags place.mailbox place.uid edit modSeq expected d
      = (.ok metadata, after) := by
  obtain ⟨small, exist, stored, found, entry⟩ := of_lookUp read
  obtain ⟨compiled, opened⟩ := Mirror.updateFlags_eq place.mailbox edit expected fits small (d := d)
  obtain ⟨keywords, -, outcome⟩ := updateRow_eq (d := { d with isKeywordCompiled := compiled })
    small exist found entry edit modSeq expected
  rw [if_pos meets, bindVariables, if_pos room] at outcome
  exact ⟨_, _, opened.trans (transaction_of_ok unlocked outcome)⟩

end Store

end Database

end Rows

/-! ### All three agree -/

/-- How a row is updated that can be read: each update that succeeds is the edit, and in a store
that is ready for it one succeeds if its modification sequence can be stored and the row has the one
that is expected. -/
structure UpdatesRow [Storage σ] [Kept σ] (ready : σ → Prop) (edit : FlagEdit) (modSeq : ModSeq)
    (expected : Option ModSeq) (place : Place) (row : Message) (store : σ) : Prop where
  edits : ∀ metadata after,
    Storage.updateFlags place.mailbox place.uid edit modSeq expected store = (.ok metadata, after) →
    EditsExactly edit modSeq place row store metadata after
  succeeds : ready store → modSeq ≤ maxStored → (∀ e ∈ expected, row.modSeq = e) →
    ∃ metadata after, Storage.updateFlags place.mailbox place.uid edit modSeq expected store
      = (.ok metadata, after)

/-- The edit of an update does what the update does, and in either store, whatever it holds, a row
that can be read is updated with an edit as the edit says. -/
theorem flagEdits_agree :
    (∀ update old, (FlagEdit.ofUpdate update).apply old = update.apply old) ∧
    ∀ (edit : FlagEdit) (modSeq : ModSeq) (expected : Option ModSeq) (place : Place)
      (row : Message),
      (∀ m : Memory.Store, lookUp .metadata m place = .ok (some row) →
        UpdatesRow (fun _ => True) edit modSeq expected place row m) ∧
      ∀ d : Database.Store, lookUp .metadata d place = .ok (some row) →
        UpdatesRow (fun d => d.lockedOut = false ∧ 2 ≤ d.variableLimit) edit modSeq expected place
          row d := by
  refine ⟨FlagEdit.ofUpdate_apply, fun edit modSeq expected place row => ⟨fun m read => ?_,
    fun d read => ?_⟩⟩
  · exact ⟨fun _ _ => Edits.updateFlags read, fun _ => Memory.Store.updateFlags_succeeds read⟩
  · exact ⟨fun _ _ => Edits.updateFlags read,
      fun ready => Database.Store.updateFlags_succeeds read ready.1 ready.2⟩

/-- An edit that no update makes: a flag is assigned twice, and keywords are replaced by none. -/
def clearingEdit : FlagEdit where
  assignments := [(.seen, true), (.flagged, true), (.seen, false)]
  keywords := .replace .empty

/-- A message that is seen, with a keyword. -/
def seenMessage : NewMessage where
  id := "m1"
  flags := { seen := true, keywords := .ofList ["old"] }
  content := [1]

/-- The row of a seen message is updated with the edit in both stores, and has one flag then. -/
theorem flagEdits_agree_clearing :
    let calls : List Call := [.append "inbox" seenMessage .epoch]
    let m := (Call.runAll ⟨1, none⟩ calls (Memory.Store.new 1)).2
    let d := (Call.runAll ⟨1, none⟩ calls (Database.Store.new "mail" 1)).2
    let place : Place := ⟨"inbox", 1⟩
    let row := { seenMessage.row "inbox" 1 1 .epoch with content := none }
    (lookUp .metadata m place = .ok (some row) ∧
        ∃ metadata after, EditsExactly clearingEdit 2 place row m metadata after) ∧
      (lookUp .metadata d place = .ok (some row) ∧
        ∃ metadata after, EditsExactly clearingEdit 2 place row d metadata after) ∧
      clearingEdit.apply row.flags = { Flags.empty with flagged := true } := by
  intro calls m d place row
  have inMemory : lookUp .metadata m place = .ok (some row) := by rfl
  have inDatabase : lookUp .metadata d place = .ok (some row) := by rfl
  have updated := flagEdits_agree.2 clearingEdit 2 (some 1) place row
  obtain ⟨metadata, after, done⟩ := (updated.1 m inMemory).succeeds trivial (by decide) (by decide)
  obtain ⟨metadata', after', done'⟩ := (updated.2 d inDatabase).succeeds (by decide) (by decide)
    (by decide)
  exact ⟨⟨inMemory, metadata, after, (updated.1 m inMemory).edits _ _ done⟩,
    ⟨inDatabase, metadata', after', (updated.2 d inDatabase).edits _ _ done'⟩, by decide⟩

end Mailroom
