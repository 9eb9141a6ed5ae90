import Mailroom.Proofs.Mirror.Reset
/-!
Removing rows in memory and in the database.

With the last row of a message its content goes too. Memory asks this of every identifier at once,
the database of the identifiers whose rows it has just removed. `removed` and `collected` say that
this is the same.
-/

namespace Mailroom

/-- A set made of a list has no more members than the list. -/
theorem NameSet.size_ofList_le (names : List String) :
    (NameSet.ofList names).size ≤ names.length := by
  have inserted (name : String) (members : List String) :
      (NameSet.insertAscending name members).length ≤ members.length + 1 := by
    induction members with
    | nil => exact Nat.le_refl 1
    | cons first rest ih =>
      unfold NameSet.insertAscending
      split
      · exact Nat.le_refl _
      · split
        · exact Nat.le_succ _
        · exact Nat.succ_le_succ ih
  have all (names : List String) (set : NameSet) :
      (names.foldl NameSet.insert set).size ≤ set.size + names.length := by
    induction names generalizing set with
    | nil => exact Nat.le_refl _
    | cons name rest ih =>
      have first : (set.insert name).size ≤ set.size + 1 := inserted name set.toList
      have later := ih (set.insert name)
      rw [List.foldl_cons, List.length_cons]
      omega
  have from_none := all names NameSet.empty
  rwa [show NameSet.empty.size = 0 from rfl, Nat.zero_add] at from_none

namespace Mirror

open Database (MessageRow)

variable {regular : Prop} {log : Log} {m : Memory.Store} {d : Database.Store}

/-- A list without repetitions has none to erase. -/
theorem eraseDups_of_nodup {uids : List Uid} (once : uids.Nodup) : uids.eraseDups = uids := by
  induction uids with
  | nil => rfl
  | cons uid rest ih =>
    obtain ⟨fresh, once⟩ := List.nodup_cons.mp once
    have others : rest.filter (fun other => !other == uid) = rest := by
      refine List.filter_eq_self.mpr fun other member => ?_
      have : other ≠ uid := fun same => fresh (same ▸ member)
      simp [this]
    rw [List.eraseDups_cons, others, ih once]

namespace Mirrors

variable (keep : Place → Message → Bool) (remove : Place → MessageRow → Bool)

/-- The contents that are left once some rows were removed. -/
theorem keepRows_contents (ids : NameSet)
    (gone : ∀ id, id ∈ ids ↔ ∃ row ∈ (m.rows.filter fun place row => !keep place row).values,
      row.messageId = id) :
    (m.keepRows keep).contents = m.contents.filter fun id _ =>
      !ids.toList.contains id || (m.rows.filter keep).values.any fun row => row.messageId = id := by
  unfold Memory.Store.keepRows
  dsimp only
  refine Table.filter_congr fun entry _ => ?_
  congr 2
  rw [Bool.eq_iff_iff, List.any_eq_true, List.contains_iff_mem, NameSet.mem_toList, gone]
  simp only [decide_eq_true_eq]

/-- The rows that a test removes from the database are those that its opposite keeps in memory. -/
theorem filter_messages (mirrors : Mirrors regular log m d) (opposite : ∀ entry ∈ m.rows.entries,
      remove entry.1 (.encode entry.2) = !keep entry.1 entry.2) :
    d.database.messages.filter (fun place row => !remove place row)
      = (m.rows.filter keep).mapValues fun _ => MessageRow.encode := by
  rw [mirrors.messages, Table.filter_mapValues, Table.filter_congr fun entry member => by
    rw [opposite entry member, Bool.not_not]]

/-- The places of the rows that a test removes from the database. -/
theorem mem_removed (mirrors : Mirrors regular log m d)
    (opposite : ∀ entry ∈ m.rows.entries, remove entry.1 (.encode entry.2) = !keep entry.1 entry.2)
    {place : Place} :
    place ∈ (d.database.messages.filter remove).entries.map (·.1) ↔
      ∃ row, m.rows.get? place = some row ∧ keep place row = false := by
  rw [mirrors.entries_selected (fun place row => !keep place row) opposite, List.map_map,
    List.mem_map]
  constructor
  · rintro ⟨⟨_, row⟩, chosen, rfl⟩
    obtain ⟨member, dropped⟩ := List.mem_filter.mp chosen
    exact ⟨row, Table.get?_eq_some_iff.mpr member, by simpa using dropped⟩
  · rintro ⟨row, found, dropped⟩
    refine ⟨(place, row), List.mem_filter.mpr ⟨Table.get?_eq_some_iff.mp found, ?_⟩, rfl⟩
    simp [dropped]

/-- Rows may be removed in both stores, with their keywords. -/
theorem removed (mirrors : Mirrors regular log m d)
    (opposite : ∀ entry ∈ m.rows.entries, remove entry.1 (.encode entry.2) = !keep entry.1 entry.2)
    (contents : Table MessageId Octets) {stored : Table MessageId Database.StoredContent}
    (same : stored = contents.mapValues fun _ => .packed) :
    Mirrors regular log { m with rows := m.rows.filter keep, contents }
      { d with database := { Database.removeMessages d.database remove with
          contents := stored } } :=
  { mirrors with
    messages := mirrors.filter_messages keep remove opposite
    contents := same
    keywords := fun place keyword => by
      refine List.mem_filter.trans ?_
      rw [mirrors.keywords, Bool.not_eq_true', List.contains_eq_mem, decide_eq_false_iff_not,
        mirrors.mem_removed keep remove opposite]
      simp only [Table.get?_filter, Option.filter_eq_some_iff]
      constructor
      · rintro ⟨⟨row, found, has⟩, kept⟩
        refine ⟨row, ⟨found, ?_⟩, has⟩
        cases h : keep place row with
        | true => rfl
        | false => exact absurd ⟨row, found, h⟩ kept
      · rintro ⟨row, ⟨found, kept⟩, has⟩
        refine ⟨⟨row, found, has⟩, ?_⟩
        rintro ⟨other, found', dropped⟩
        rw [found] at found'
        cases found'
        rw [kept] at dropped
        cases dropped
    stored := fun place row found => by
      rw [Table.get?_filter, Option.filter_eq_some_iff] at found
      exact mirrors.stored place row found.1
    readable := fun proper row member =>
      mirrors.readable proper row (mem_values_of_chosen member) }

/-- Once rows were removed from the database, the contents go that no row has any more. -/
theorem collectContents_eq (mirrors : Mirrors regular log m d)
    (opposite : ∀ entry ∈ m.rows.entries, remove entry.1 (.encode entry.2) = !keep entry.1 entry.2)
    (ids : NameSet) (few : ids.size ≤ maxVariables) :
    d.collectContents (Database.removeMessages d.database remove) ids
      = .ok { Database.removeMessages d.database remove with
          contents := (m.contents.filter fun id _ =>
            !ids.toList.contains id || (m.rows.filter keep).values.any fun row =>
              row.messageId = id).mapValues fun _ => .packed } := by
  have left (id : MessageId) :
      ((d.database.messages.filter fun place row => !remove place row).values.any fun row =>
        row.messageId = .text id) = (m.rows.filter keep).values.any fun row =>
          row.messageId = id := by
    rw [mirrors.filter_messages keep remove opposite, Table.values_mapValues, List.any_map]
    refine List.any_congr rfl fun row => ?_
    simp [MessageRow.encode]
  unfold Database.Store.collectContents
  split
  · rename_i nothing
    have kept : (m.contents.filter fun id _ => !ids.toList.contains id ||
        (m.rows.filter keep).values.any fun row => row.messageId = id) = m.contents := by
      refine Table.filter_eq_self fun entry _ => ?_
      rw [List.isEmpty_iff.mp nothing]
      rfl
    rw [kept, ← mirrors.contents]
    rfl
  · have complete : (Database.removeMessages d.database remove).missing = [] := mirrors.complete
    have contents : (Database.removeMessages d.database remove).contents
        = m.contents.mapValues fun _ => .packed := mirrors.contents
    rw [requireRelations_of_complete complete, mirrors.bindVariables few, contents,
      Table.filter_mapValues]
    have same : (m.contents.filter fun id _ => !ids.toList.contains id ||
        (Database.removeMessages d.database remove).messages.values.any fun row =>
          row.messageId = .text id) = m.contents.filter fun id _ => !ids.toList.contains id ||
            (m.rows.filter keep).values.any fun row => row.messageId = id :=
      Table.filter_congr fun entry _ => congrArg _ (left entry.1)
    rw [same]
    rfl

/-- Removing rows and the contents of their messages does the same in both stores. -/
theorem removes (mirrors : Mirrors regular log m d)
    (opposite : ∀ entry ∈ m.rows.entries, remove entry.1 (.encode entry.2) = !keep entry.1 entry.2)
    (ids : NameSet) (few : ids.size ≤ maxVariables)
    (gone : ∀ id, id ∈ ids ↔ ∃ row ∈ (m.rows.filter fun place row => !keep place row).values,
      row.messageId = id) :
    ∃ db, d.collectContents (Database.removeMessages d.database remove) ids = .ok db ∧
      Mirrors regular log (m.keepRows keep) { d with database := db } := by
  have collected := mirrors.collectContents_eq keep remove opposite ids few
  rw [← keepRows_contents keep ids gone] at collected
  exact ⟨_, collected, mirrors.removed keep remove opposite _ rfl⟩

/-! ### Removing a batch -/

section Batch

variable {mailbox : MailboxId} {uids : List Uid}

/-- Numbers beyond what the database can hold choose no row. -/
theorem chosen_storedUids (mirrors : Mirrors regular log m d) :
    chosen m mailbox uids = chosen m mailbox (Database.Store.storedUids uids) :=
  Table.filter_congr fun entry member => by rw [mirrors.contains_storedUids member]

/-- No more rows are chosen than the database can hold numbers. -/
theorem length_chosen_le (mirrors : Mirrors regular log m d) (mailbox : MailboxId)
    (ascending : uids.Pairwise (· < ·)) :
    (chosen m mailbox uids).values.length ≤ (Database.Store.storedUids uids).length := by
  have stored : (Database.Store.storedUids uids).Pairwise (· < ·) := ascending.filter _
  rw [mirrors.chosen_storedUids, chosen_values stored]
  exact List.length_filterMap_le _ _

theorem deleteBatch_memory (mirrors : Mirrors regular log m d) (mailbox : MailboxId)
    (ascending : uids.Pairwise (· < ·)) :
    m.deleteBatch mailbox uids = .ok ((chosen m mailbox uids).values.map Message.metadata,
      m.keepRows fun place _ => !(place.mailbox = mailbox && uids.contains place.uid)) := by
  unfold Memory.Store.deleteBatch
  rw [mirrors.ensureAvailable, eraseDups_of_nodup (ascending.imp fun before => Nat.ne_of_lt before),
    chosen_values ascending]
  rfl

/-- Keeping every row keeps every content. -/
theorem keepRows_all {keep : Place → Message → Bool}
    (all : ∀ entry ∈ m.rows.entries, keep entry.1 entry.2 = true) : m.keepRows keep = m := by
  have rows : m.rows.filter keep = m.rows := Table.filter_eq_self all
  have dropped : (m.rows.filter fun place row => !keep place row).values = [] := by
    have none_dropped : m.rows.entries.filter (fun entry => !keep entry.1 entry.2) = [] :=
      List.filter_eq_nil_iff.mpr fun entry member => by simp [all entry member]
    rw [Table.values, Table.entries_filter, none_dropped]
    rfl
  unfold Memory.Store.keepRows
  simp only [rows, dropped]
  have contents : (m.contents.filter fun id _ => !(List.any [] fun row : Message =>
      row.messageId = id) || m.rows.values.any fun row => row.messageId = id) = m.contents :=
    Table.filter_eq_self fun _ _ => rfl
  rw [contents]

/-- Removing a batch does the same in both stores, unless it has too many numbers or meets a row
with a date that cannot be read. -/
theorem deleteBatch_agreesUnless (mirrors : Mirrors regular log m d) (mailbox : MailboxId)
    (ascending : uids.Pairwise (· < ·)) :
    AgreesUnless (maxVariables < (Database.Store.storedUids uids).length + 1 ∨
        ∃ row ∈ m.rows.values, ¬ row.HasPlainDates)
      regular log (Storage.deleteBatch mailbox uids) (Storage.deleteBatch mailbox uids) m d := by
  have inMemory := mirrors.deleteBatch_memory mailbox ascending
  show AgreesUnless _ regular log (.write (Memory.Store.deleteBatch mailbox uids))
    (Database.Store.deleteBatch mailbox uids) m d
  unfold Database.Store.deleteBatch
  by_cases nothing : Database.Store.storedUids uids = []
  · have none_chosen := mirrors.chosen_of_no_storedUids mailbox nothing
    rw [Table.values, none_chosen, keepRows_all] at inMemory
    · rw [nothing]
      exact .inl ⟨by rw [Step.write_of_ok inMemory]; rfl,
        by rw [Step.write_of_ok inMemory]; exact mirrors⟩
    · intro entry member
      rw [← mirrors.contains_storedUids member, nothing]
      simp
  have nonempty : ¬ (Database.Store.storedUids uids).isEmpty = true := by
    rwa [List.isEmpty_iff]
  simp only [if_neg nonempty]
  by_cases few : (Database.Store.storedUids uids).length + 1 ≤ maxVariables
  case neg =>
    have fails : d.selectUids mailbox uids .metadata
        = .error Database.EngineError.tooManyVariables.toStoreError := by
      unfold Database.Store.selectUids
      rw [if_neg nonempty, mirrors.bindVariables_error (Nat.not_le.mp few)]
      rfl
    exact .inr ⟨.inl (Nat.not_le.mp few), mirrors.refuses_of_error (by rw [fails]; rfl)⟩
  by_cases plain : ∀ row ∈ (chosen m mailbox uids).values, row.HasPlainDates
  case neg =>
    obtain ⟨row, member, signed⟩ : ∃ row ∈ (chosen m mailbox uids).values,
        ¬ row.HasPlainDates := by
      simpa using plain
    obtain ⟨e, fails⟩ := mirrors.selectUids_of_not_plain .metadata member signed
    exact .inr ⟨.inr ⟨row, mem_values_of_chosen member, signed⟩,
      mirrors.refuses_of_error (by rw [fails]; rfl)⟩
  have read : d.selectUids mailbox uids .metadata = .ok (chosen m mailbox uids).values := by
    rw [mirrors.selectUids_of_plain .metadata few plain]
    exact congrArg _ (List.map_id _)
  have length := mirrors.length_chosen_le mailbox ascending
  have size := NameSet.size_ofList_le ((chosen m mailbox uids).values.map Message.messageId)
  rw [List.length_map] at size
  obtain ⟨db, collected, after⟩ := mirrors.removes
    (fun place _ => !(place.mailbox = mailbox && uids.contains place.uid))
    (fun place _ => place.mailbox = mailbox &&
      (Database.Store.storedUids uids).contains place.uid)
    (fun entry member => by rw [mirrors.contains_storedUids member, Bool.not_not])
    (NameSet.ofList ((chosen m mailbox uids).values.map Message.messageId)) (by omega)
    (fun id => by
      rw [NameSet.mem_ofList, List.mem_map]
      simp only [Bool.not_not]
      rfl)
  refine .inl (mirrors.agrees_of_ok inMemory ?_ after)
  simp only [read, Outcomes.ok_bind, collected]
  rfl

theorem deleteBatch_agrees (mirrors : Mirrors regular log m d) (mailbox : MailboxId)
    (ascending : uids.Pairwise (· < ·)) (few : uids.length + 1 ≤ maxVariables)
    (plain : ∀ row ∈ m.rows.values, row.HasPlainDates) :
    Agrees regular log (Storage.deleteBatch mailbox uids) (Storage.deleteBatch mailbox uids)
      m d := by
  refine (mirrors.deleteBatch_agreesUnless mailbox ascending).agrees ?_
  rintro (many | ⟨row, member, signed⟩)
  · have fewer : (Database.Store.storedUids uids).length ≤ uids.length := List.length_filter_le _ _
    omega
  · exact signed (plain row member)

theorem deleteBatch_follows (mirrors : Mirrors False log m d) (mailbox : MailboxId)
    (ascending : uids.Pairwise (· < ·)) :
    Follows False log (Storage.deleteBatch mailbox uids) (Storage.deleteBatch mailbox uids) m d :=
  (mirrors.deleteBatch_agreesUnless mailbox ascending).follows

end Batch

/-! ### Removing a mailbox, and a message -/

/-- The identifiers of the messages of a mailbox. -/
theorem mailboxIds_eq (mirrors : Mirrors regular log m d) (mailbox : MailboxId) :
    (d.database.messages.filter fun place _ => place.mailbox = mailbox).values.mapM
        (fun row => row.messageId.readText)
      = .ok ((m.mailboxRows mailbox).map Message.messageId) := by
  rw [mirrors.messages, Table.filter_mapValues, Table.values_mapValues, List.mapM_map]
  exact Outcomes.mapM_of_forall_ok fun _ _ => rfl

/-- Removing a mailbox does the same in both stores, unless it has too many messages. -/
theorem deleteMailbox_agreesUnless (mirrors : Mirrors regular log m d) (mailbox : MailboxId) :
    AgreesUnless
      (maxVariables < (NameSet.ofList ((m.mailboxRows mailbox).map Message.messageId)).size)
      regular log (Storage.deleteMailbox mailbox) (Storage.deleteMailbox mailbox) m d := by
  have inMemory : m.deleteMailbox mailbox
      = .ok (Memory.Store.sortNames ((m.mailboxRows mailbox).map Message.messageId),
        m.keepRows fun place _ => place.mailbox ≠ mailbox) := by
    unfold Memory.Store.deleteMailbox
    rw [mirrors.ensureAvailable]
    rfl
  show AgreesUnless _ regular log (.write (Memory.Store.deleteMailbox mailbox))
    (Database.Store.deleteMailbox mailbox) m d
  unfold Database.Store.deleteMailbox
  by_cases few : (NameSet.ofList ((m.mailboxRows mailbox).map Message.messageId)).size
    ≤ maxVariables
  · obtain ⟨db, collected, after⟩ := mirrors.removes
      (fun place _ => place.mailbox ≠ mailbox)
      (fun place _ => place.mailbox = mailbox) (fun entry _ => by simp)
      (NameSet.ofList ((m.mailboxRows mailbox).map Message.messageId)) few (fun id => by
        rw [NameSet.mem_ofList, List.mem_map, Memory.Store.mailboxRows]
        simp)
    refine .inl (mirrors.agrees_of_ok inMemory ?_ after)
    simp only [mirrors.requireRelations, mirrors.mailboxIds_eq, Outcomes.ok_bind, collected]
    rfl
  · have nonempty : ¬ (NameSet.ofList
        ((m.mailboxRows mailbox).map Message.messageId)).isEmpty = true := by
      intro empty
      rw [NameSet.size, List.isEmpty_iff.mp empty] at few
      exact few (Nat.zero_le _)
    have complete : (Database.removeMessages d.database fun place _ =>
        place.mailbox = mailbox).missing = [] := mirrors.complete
    have fails : d.collectContents (Database.removeMessages d.database fun place _ =>
          place.mailbox = mailbox) (.ofList ((m.mailboxRows mailbox).map Message.messageId))
        = .error Database.EngineError.tooManyVariables.toStoreError := by
      unfold Database.Store.collectContents
      rw [if_neg nonempty, requireRelations_of_complete complete,
        mirrors.bindVariables_error (Nat.not_le.mp few)]
      rfl
    refine .inr ⟨Nat.not_le.mp few, mirrors.refuses_of_error
      (e := Database.EngineError.tooManyVariables.toStoreError) ?_⟩
    simp only [mirrors.requireRelations, mirrors.mailboxIds_eq, Outcomes.ok_bind, fails,
      Outcomes.error_bind]

theorem deleteMailbox_agrees (mirrors : Mirrors regular log m d) (mailbox : MailboxId)
    (few : (NameSet.ofList ((m.mailboxRows mailbox).map Message.messageId)).size ≤ maxVariables) :
    Agrees regular log (Storage.deleteMailbox mailbox) (Storage.deleteMailbox mailbox) m d :=
  (mirrors.deleteMailbox_agreesUnless mailbox).agrees (Nat.not_lt.mpr few)

theorem deleteMailbox_follows (mirrors : Mirrors False log m d) (mailbox : MailboxId) :
    Follows False log (Storage.deleteMailbox mailbox) (Storage.deleteMailbox mailbox) m d :=
  (mirrors.deleteMailbox_agreesUnless mailbox).follows

/-- Without the rows of a message and its content no other content goes. -/
theorem contents_without (m : Memory.Store) (id : MessageId) :
    (m.keepRows fun _ row => row.messageId ≠ id).contents.erase id
      = m.contents.filter fun other _ => !(NameSet.ofList [id]).toList.contains other ||
        (m.rows.filter fun _ row => decide (row.messageId ≠ id)).values.any fun row =>
          row.messageId = other := by
  unfold Memory.Store.keepRows Table.erase
  dsimp only
  rw [Table.filter_filter]
  refine Table.filter_congr fun entry _ => ?_
  have named : (NameSet.ofList [id]).toList.contains entry.1 = decide (entry.1 = id) := by
    rw [Bool.eq_iff_iff, List.contains_iff_mem, NameSet.mem_toList, NameSet.mem_ofList,
      List.mem_singleton, decide_eq_true_eq]
  rw [named]
  by_cases same : entry.1 = id
  · have none_kept : ((m.rows.filter fun _ row => decide (row.messageId ≠ id)).values.any fun row =>
        row.messageId = id) = false := by
      rw [List.any_eq_false]
      intro row member
      obtain ⟨place, found⟩ := Table.mem_values_iff.mp member
      rw [Table.get?_filter, Option.filter_eq_some_iff] at found
      simpa using found.2
    rw [same, none_kept]
    simp
  · have none_dropped : ((m.rows.filter fun _ row => !decide (row.messageId ≠ id)).values.any
        fun row => row.messageId = entry.1) = false := by
      rw [List.any_eq_false]
      intro row member
      obtain ⟨place, found⟩ := Table.mem_values_iff.mp member
      rw [Table.get?_filter, Option.filter_eq_some_iff] at found
      have here : row.messageId = id := by simpa using found.2
      simpa [here] using fun h => same h.symm
    rw [none_dropped]
    simp [same]

theorem deleteMessage_agrees (mirrors : Mirrors regular log m d) (id : MessageId) :
    Agrees regular log (Storage.deleteMessage id) (Storage.deleteMessage id) m d := by
  have opposite : ∀ entry ∈ m.rows.entries,
      decide ((MessageRow.encode entry.2).messageId = .text id)
      = !decide (entry.2.messageId ≠ id) := fun entry _ => by simp [MessageRow.encode]
  have collected := mirrors.collectContents_eq (fun _ row => row.messageId ≠ id)
    (fun _ row => row.messageId = .text id) opposite (.ofList [id])
    (Nat.le_trans (NameSet.size_ofList_le [id]) (Nat.le_of_ble_eq_true rfl))
  rw [← contents_without m id] at collected
  have after := mirrors.removed (fun _ row => row.messageId ≠ id)
    (fun _ row => row.messageId = .text id) opposite
    ((m.keepRows fun _ row => row.messageId ≠ id).contents.erase id) rfl
  have inMemory : m.deleteMessage id = .ok (m.mailboxesOf id,
      { m.keepRows (fun _ row => row.messageId ≠ id) with
        contents := (m.keepRows fun _ row => row.messageId ≠ id).contents.erase id }) := by
    unfold Memory.Store.deleteMessage
    rw [mirrors.ensureAvailable]
    rfl
  show Agrees regular log (.write (Memory.Store.deleteMessage id))
    (Database.Store.deleteMessage id) m d
  unfold Database.Store.deleteMessage
  refine mirrors.agrees_of_ok inMemory ?_ after
  simp only [mirrors.requireRelations, mirrors.mailboxesOf_eq, Outcomes.ok_bind, collected]
  rfl

end Mirrors

end Mirror

end Mailroom
