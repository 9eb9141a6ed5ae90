import Mailroom.Proofs.Mirror.Relation
import Mailroom.Proofs.Paging
/-!
Reads of messages answer alike in memory and in the database.

`selectMessages_of_plain` is the one place where rows of the database are read back. It fails only
if a date among the rows that are asked for cannot be read (`selectMessages_of_not_plain`).
-/

namespace Mailroom.Mirror

open Database (MessageRow MessageValues)

variable {regular : Prop} {log : Log} {m : Memory.Store} {d : Database.Store}

namespace Mirrors

/-- An entry of the table of rows lies at its own place. -/
theorem stored_entry (mirrors : Mirrors regular log m d) {entry : Place × Message}
    (member : entry ∈ m.rows.entries) : Stored entry.1 entry.2 :=
  mirrors.stored _ _ (Table.get?_eq_some_iff.mpr member)

theorem mailbox_entry (mirrors : Mirrors regular log m d) {entry : Place × Message}
    (member : entry ∈ m.rows.entries) : entry.2.mailbox = entry.1.mailbox :=
  congrArg Place.mailbox (mirrors.stored_entry member).place_eq

theorem uid_entry (mirrors : Mirrors regular log m d) {entry : Place × Message}
    (member : entry ∈ m.rows.entries) : entry.2.uid = entry.1.uid :=
  congrArg Place.uid (mirrors.stored_entry member).place_eq

/-- No row has a number beyond what the database can hold. -/
theorem uid_le (mirrors : Mirrors regular log m d) {place : Place} {row : Message}
    (found : m.rows.get? place = some row) : place.uid ≤ maxStored := by
  have same : row.uid = place.uid := congrArg Place.uid (mirrors.stored _ _ found).place_eq
  exact same ▸ (mirrors.stored _ _ found).uid_le

/-! ### Reading rows back -/

/-- A row of the database at its place, with the values in its columns. -/
def typedRow (entry : Place × MessageRow) : Except StoreError (Place × MessageValues) :=
  return (entry.1, ← entry.2.values)

/-- The message at a place, with what is stored for it elsewhere. -/
def readRow (db : Database) (fetch : Fetch) (entry : Place × MessageValues) :
    Except StoreError Message :=
  entry.2.read entry.1 (Database.keywordsAt db entry.1) (match fetch with
    | .metadata => none
    | .full => db.contents.get? entry.2.messageId)

/-- Reading chosen rows takes them out of their columns, and then reads one after another. -/
theorem selectMessages_eq (mirrors : Mirrors regular log m d) {fetch : Fetch}
    {keep : Place → MessageRow → Bool} {limit : Option Nat} :
    Database.selectMessages d.database fetch keep limit =
      (cut limit (d.database.messages.filter keep).entries).mapM typedRow >>= fun rows =>
        rows.mapM (readRow d.database fetch) := by
  unfold Database.selectMessages
  rw [mirrors.requireRelations]
  cases limit <;> rfl

/-- What is read back of one row is the row as memory presents it. -/
theorem readRow_of_plain (mirrors : Mirrors regular log m d) {place : Place} {row : Message}
    (found : m.rows.get? place = some row) (plain : row.HasPlainDates) (fetch : Fetch) :
    readRow d.database fetch (place, .encode row) = .ok (m.present fetch row) := by
  have stored := mirrors.stored place row found
  have mailbox : place.mailbox = row.mailbox := congrArg Place.mailbox stored.place_eq.symm
  have uid : place.uid = row.uid := congrArg Place.uid stored.place_eq.symm
  unfold readRow
  rw [mirrors.keywordsAt found]
  cases fetch with
  | metadata =>
    show (MessageValues.encode row).read place _ (Option.map .packed none) = _
    rw [MessageRow.read_of_plain plain, row.asWritten_of_plain stored.seconds, mailbox, uid,
      ← stored.content_eq]
    rfl
  | full =>
    rw [mirrors.get?_contents, MessageRow.read_of_plain plain,
      row.asWritten_of_plain stored.seconds, mailbox, uid]
    rfl

/-- A row with a date that is not plain is not read back. -/
theorem readRow_of_not_plain (mirrors : Mirrors regular log m d) (place : Place) {row : Message}
    (signed : ¬ row.HasPlainDates) (fetch : Fetch) :
    ∃ e, readRow d.database fetch (place, .encode row) = .error e := by
  unfold readRow
  cases fetch with
  | metadata =>
    obtain ⟨text, fails⟩ := MessageRow.read_of_not_plain signed place
      (Database.keywordsAt d.database place) none
    exact ⟨_, fails⟩
  | full =>
    obtain ⟨text, fails⟩ := MessageRow.read_of_not_plain signed place
      (Database.keywordsAt d.database place) (m.contents.get? row.messageId)
    rw [← mirrors.get?_contents] at fails
    exact ⟨_, fails⟩

variable {fetch : Fetch} {limit : Option Nat} {keep : Place → MessageRow → Bool}
  {test : Place → Message → Bool}

/-- The rows that pass a test in the database are the images of those that pass it in memory. -/
theorem entries_selected (mirrors : Mirrors regular log m d) (test : Place → Message → Bool)
    (same : ∀ entry ∈ m.rows.entries, keep entry.1 (.encode entry.2) = test entry.1 entry.2) :
    (d.database.messages.filter keep).entries
      = (m.rows.filter test).entries.map fun entry => (entry.1, .encode entry.2) := by
  rw [mirrors.messages, Table.filter_mapValues, Table.filter_congr same]
  rfl

/-- The columns of the chosen rows all have the right types. -/
theorem values_selected (mirrors : Mirrors regular log m d)
    (same : ∀ entry ∈ m.rows.entries, keep entry.1 (.encode entry.2) = test entry.1 entry.2) :
    (cut limit (d.database.messages.filter keep).entries).mapM typedRow
      = .ok ((cut limit (m.rows.filter test).entries).map
          fun entry => (entry.1, .encode entry.2)) := by
  rw [mirrors.entries_selected test same, ← map_cut, List.mapM_map]
  refine Outcomes.mapM_of_forall_ok fun entry _ => ?_
  show (do return (entry.1, ← (MessageRow.encode entry.2).values)) = _
  rw [MessageRow.values_encode]
  rfl

/-- Reading chosen rows answers what memory presents, if their dates are plain. -/
theorem selectMessages_of_plain (mirrors : Mirrors regular log m d) (fetch : Fetch)
    (limit : Option Nat) (keep : Place → MessageRow → Bool) (test : Place → Message → Bool)
    (same : ∀ entry ∈ m.rows.entries, keep entry.1 (.encode entry.2) = test entry.1 entry.2)
    (plain : ∀ row ∈ cut limit (m.rows.filter test).values, row.HasPlainDates) :
    Database.selectMessages d.database fetch keep limit
      = .ok ((cut limit (m.rows.filter test).values).map (m.present fetch)) := by
  rw [mirrors.selectMessages_eq, mirrors.values_selected same]
  show List.mapM _ _ = _
  rw [List.mapM_map, Table.values, ← map_cut, List.map_map]
  refine Outcomes.mapM_of_forall_ok fun entry member => ?_
  have chosen := (List.mem_filter.mp (mem_of_mem_cut member)).1
  have plain : entry.2.HasPlainDates := plain _ (by
    rw [Table.values, ← map_cut]
    exact List.mem_map_of_mem member)
  exact mirrors.readRow_of_plain (Table.get?_eq_some_iff.mpr chosen) plain fetch

/-- Reading chosen rows fails, if a date among them is not plain. -/
theorem selectMessages_of_not_plain (mirrors : Mirrors regular log m d) (fetch : Fetch)
    (limit : Option Nat) (keep : Place → MessageRow → Bool) (test : Place → Message → Bool)
    (same : ∀ entry ∈ m.rows.entries, keep entry.1 (.encode entry.2) = test entry.1 entry.2)
    {row : Message} (member : row ∈ cut limit (m.rows.filter test).values)
    (signed : ¬ row.HasPlainDates) :
    ∃ e, Database.selectMessages d.database fetch keep limit = .error e := by
  rw [Table.values, ← map_cut] at member
  obtain ⟨entry, chosen, rfl⟩ := List.mem_map.mp member
  obtain ⟨e, fails⟩ := mirrors.readRow_of_not_plain entry.1 signed fetch
  rw [mirrors.selectMessages_eq, mirrors.values_selected same]
  exact Outcomes.mapM_of_mem_error (List.mem_map_of_mem chosen) fails

/-! ### The reads of a store -/

/-- A row that was chosen from the table is a row of the table. -/
theorem mem_values_of_chosen {row : Message} (member : row ∈ (m.rows.filter test).values) :
    row ∈ m.rows.values := by
  obtain ⟨place, found⟩ := Table.mem_values_iff.mp member
  rw [Table.get?_filter, Option.filter_eq_some_iff] at found
  exact Table.mem_values_iff.mpr ⟨place, found.1⟩

/-- The row at one place, chosen from the table. -/
theorem values_filter_place {place : Place} :
    (m.rows.filter fun other _ => decide (other = place)).values = (m.rows.get? place).toList := by
  rw [Table.values, Table.entries_filter_key, List.map_map]
  exact List.map_id _

/-- A single row with a plain date is found as it is in memory. -/
theorem find_of_plain (mirrors : Mirrors regular log m d) {mailbox : MailboxId} {uid : Uid}
    (plain : ∀ row ∈ m.rows.get? ⟨mailbox, uid⟩, row.HasPlainDates) :
    d.find mailbox uid fetch = m.find mailbox uid fetch := by
  have inMemory : m.find mailbox uid fetch
      = .ok ((m.rows.get? ⟨mailbox, uid⟩).map (m.present fetch)) := by
    unfold Memory.Store.find
    rw [mirrors.ensureAvailable]
    rfl
  rw [inMemory]
  unfold Database.Store.find
  split
  · rename_i great
    cases found : m.rows.get? ⟨mailbox, uid⟩ with
    | none => rfl
    | some row => exact absurd great (Nat.not_lt.mpr (mirrors.uid_le found))
  · have rows := mirrors.selectMessages_of_plain fetch none
      (fun place _ => decide (place = ⟨mailbox, uid⟩))
      (fun place _ => decide (place = ⟨mailbox, uid⟩)) (fun _ _ => rfl) (by
        intro row member
        rw [cut, values_filter_place, Option.mem_toList] at member
        exact plain row member)
    rw [cut, values_filter_place] at rows
    rw [rows]
    cases m.rows.get? ⟨mailbox, uid⟩ <;> rfl

/-- A single row with a date that is not plain cannot be read. -/
theorem find_of_not_plain (mirrors : Mirrors regular log m d) {mailbox : MailboxId} {uid : Uid}
    {row : Message} (found : m.rows.get? ⟨mailbox, uid⟩ = some row)
    (signed : ¬ row.HasPlainDates) : ∃ e, d.find mailbox uid fetch = .error e := by
  have member : row ∈ cut none
      (m.rows.filter fun place _ => decide (place = ⟨mailbox, uid⟩)).values := by
    rw [cut, values_filter_place, found]
    exact List.mem_singleton_self row
  obtain ⟨e, fails⟩ := mirrors.selectMessages_of_not_plain fetch none
    (fun place _ => decide (place = ⟨mailbox, uid⟩)) _ (fun _ _ => rfl) member signed
  refine ⟨e, ?_⟩
  unfold Database.Store.find
  rw [if_neg (Nat.not_lt.mpr (mirrors.uid_le found)), fails]
  rfl

/-- The rows of a mailbox, chosen by a test on the row. -/
theorem mailboxRows_filter {mailbox : MailboxId} {test : Message → Bool} :
    (m.mailboxRows mailbox).filter test
      = (m.rows.filter fun place row => decide (place.mailbox = mailbox) && test row).values := by
  have tested : ((m.rows.filter fun place _ => decide (place.mailbox = mailbox)).filter
      fun _ => test).values = (m.mailboxRows mailbox).filter test :=
    Table.values_filter fun _ _ => rfl
  rw [← tested, Table.filter_filter]

/-- No row lies beyond what the database can hold. -/
theorem reaches_of_isBeyondRows {request : PageRequest}
    (beyond : Database.Store.isBeyondRows request = true) {uid : Uid} (small : uid ≤ maxStored) :
    request.reaches uid = false := by
  simp only [Database.Store.isBeyondRows, Bool.or_eq_true, decide_eq_true_eq] at beyond
  unfold PageRequest.reaches UidRange.contains
  rcases beyond with great | great
  · have : decide (request.range.lower ≤ uid) = false :=
      decide_eq_false (Nat.not_le.mpr (Nat.lt_of_le_of_lt small great))
    rw [this, Bool.false_and, Bool.false_and]
  · cases after : request.after with
    | none =>
      rw [after] at great
      cases great
    | some uid' =>
      rw [after] at great
      have great : maxStored < uid' := of_decide_eq_true great
      have : decide (uid' < uid) = false :=
        decide_eq_false (Nat.not_lt.mpr (Nat.le_of_lt (Nat.lt_of_le_of_lt small great)))
      rw [Option.all_some, this, Bool.and_false]

/-- Whether a row in memory belongs to a page. -/
def onPage (request : PageRequest) (place : Place) (row : Message) : Bool :=
  place.mailbox = request.mailbox && (request.reaches place.uid && request.filter.admits row.flags)

/-- The rows of a page, chosen from a table in which each row has the number of its place. -/
theorem pageRows_of_uids {request : PageRequest}
    (uids : ∀ entry ∈ m.rows.entries, entry.2.uid = entry.1.uid) :
    m.pageRows request = cut request.limit (m.rows.filter (onPage request)).values := by
  unfold Memory.Store.pageRows
  rw [mailboxRows_filter, Table.filter_congr]
  · rfl
  · intro entry member
    rw [uids entry member, onPage]

theorem pageRows_eq (mirrors : Mirrors regular log m d) {request : PageRequest} :
    m.pageRows request = cut request.limit (m.rows.filter (onPage request)).values :=
  pageRows_of_uids fun _ => mirrors.uid_entry

/-- A page that asks for rows beyond what the database can hold, or for none, has none. -/
theorem pageRows_eq_nil (mirrors : Mirrors regular log m d) {request : PageRequest}
    (nothing : (Database.Store.isBeyondRows request || decide (request.limit = 0)) = true) :
    m.pageRows request = [] := by
  rcases Bool.or_eq_true_iff.mp nothing with beyond | zero
  · have none_chosen : (m.rows.filter (onPage request)).entries = [] := by
      refine List.filter_eq_nil_iff.mpr fun entry member => ?_
      rw [onPage,
        reaches_of_isBeyondRows beyond (mirrors.uid_le (Table.get?_eq_some_iff.mpr member))]
      simp
    rw [mirrors.pageRows_eq, Table.values, none_chosen]
    exact List.take_nil
  · unfold Memory.Store.pageRows
    rw [of_decide_eq_true zero, List.take_zero]

/-- The test of a page on a row of the database is that on the row in memory. -/
theorem onPage_encode (request : PageRequest) (place : Place) (row : Message) :
    Database.Store.onPage request place (.encode row) = onPage request place row := by
  rw [Database.Store.onPage, MessageRow.passes_encode, onPage, Bool.and_assoc]

theorem fetchUidPage_eq (mirrors : Mirrors regular log m d) (request : PageRequest) :
    d.fetchUidPage request = m.fetchUidPage request := by
  have inMemory : m.fetchUidPage request = .ok ((m.pageRows request).map Message.uid) := by
    unfold Memory.Store.fetchUidPage
    rw [mirrors.ensureAvailable]
    rfl
  rw [inMemory]
  unfold Database.Store.fetchUidPage
  split
  · rename_i nothing
    rw [mirrors.pageRows_eq_nil nothing]
    rfl
  · rw [mirrors.requireRelations, mirrors.pageRows_eq,
      mirrors.entries_selected _ fun entry _ => onPage_encode request entry.1 entry.2]
    show Except.ok _ = Except.ok _
    rw [Table.values, ← map_cut, List.map_map, ← List.map_take, List.map_map]
    congr 1
    refine List.map_congr_left fun entry member => ?_
    have chosen := (List.mem_filter.mp (List.mem_of_mem_take member)).1
    exact (mirrors.uid_entry chosen).symm

/-- The rows of a mailbox in the database are the images of those in memory. -/
theorem mailboxRows_eq (mirrors : Mirrors regular log m d) (mailbox : MailboxId) :
    d.mailboxRows mailbox
      = (m.rows.filter fun place _ => decide (place.mailbox = mailbox)).entries.map
        fun entry => (entry.1, .encode entry.2) :=
  mirrors.entries_selected _ fun _ _ => rfl

/-- A row of the database is unseen if the row in memory is. -/
theorem seen_encode {row : Message} :
    decide ((MessageRow.encode row).seen = .integer 0) = !row.flags.seen := by
  cases h : row.flags.seen <;> simp [MessageRow.encode, h]

theorem counts_eq (mirrors : Mirrors regular log m d) (mailbox : MailboxId) :
    d.counts mailbox = m.counts mailbox := by
  unfold Database.Store.counts Memory.Store.counts
  rw [mirrors.requireRelations, mirrors.ensureAvailable, mirrors.mailboxRows_eq]
  show Except.ok _ = Except.ok _
  rw [List.filter_map, List.length_map, List.length_map, Memory.Store.mailboxRows, Table.values,
    List.filter_map, List.length_map, List.length_map]
  simp only [Function.comp_def, seen_encode]

theorem firstUnseen_eq (mirrors : Mirrors regular log m d) (mailbox : MailboxId) :
    d.firstUnseen mailbox = m.firstUnseen mailbox := by
  unfold Database.Store.firstUnseen Memory.Store.firstUnseen
  rw [mirrors.requireRelations, mirrors.ensureAvailable, mirrors.mailboxRows_eq]
  show Except.ok _ = Except.ok _
  rw [List.find?_map, Memory.Store.mailboxRows, Table.values, List.find?_map, Option.map_map,
    Option.map_map]
  simp only [Function.comp_def, seen_encode]
  congr 1
  refine Option.map_congr fun entry found => ?_
  exact (mirrors.uid_entry (List.mem_filter.mp (List.mem_of_find?_eq_some found)).1).symm

/-- The keywords of all rows of a list. -/
theorem mem_foldl_union {rows : List Message} {set : NameSet} {keyword : String} :
    keyword ∈ rows.foldl (fun set row => set.union row.flags.keywords) set ↔
      keyword ∈ set ∨ ∃ row ∈ rows, keyword ∈ row.flags.keywords := by
  induction rows generalizing set with
  | nil => simp
  | cons row rows ih => rw [List.foldl_cons, ih, NameSet.mem_union]; simp [or_assoc]

theorem keywords_eq (mirrors : Mirrors regular log m d) (mailbox : MailboxId) :
    Database.Store.keywords mailbox d = m.keywords mailbox := by
  unfold Database.Store.keywords Memory.Store.keywords
  rw [mirrors.requireRelations, mirrors.ensureAvailable]
  show Except.ok _ = Except.ok _
  congr 1
  ext keyword
  rw [NameSet.mem_ofList, mem_foldl_union]
  simp only [NameSet.not_mem_empty, false_or, List.mem_map, List.mem_filter, decide_eq_true_eq]
  constructor
  · rintro ⟨⟨place, _⟩, ⟨listed, here⟩, rfl⟩
    obtain ⟨row, found, has⟩ := (mirrors.keywords _ _).mp listed
    refine ⟨row, ?_, has⟩
    refine Table.mem_values_iff.mpr ⟨place, ?_⟩
    rw [Table.get?_filter, found]
    exact Option.filter_some_pos (decide_eq_true here)
  · rintro ⟨row, member, has⟩
    obtain ⟨place, found⟩ := Table.mem_values_iff.mp member
    rw [Table.get?_filter, Option.filter_eq_some_iff, decide_eq_true_eq] at found
    exact ⟨(place, keyword), ⟨(mirrors.keywords _ _).mpr ⟨row, found.1, has⟩, found.2⟩, rfl⟩

/-- The mailboxes that hold a message. -/
theorem mailboxesOf_eq (mirrors : Mirrors regular log m d) (id : MessageId) :
    Database.Store.mailboxesOf d.database id = m.mailboxesOf id := by
  show (NameSet.ofList ((d.database.messages.filter _).entries.map _)).toList = _
  rw [mirrors.entries_selected (fun _ row => decide (row.messageId = id))
    (fun _ _ => by simp [MessageRow.encode])]
  rw [List.map_map, Memory.Store.mailboxesOf, Table.values, List.map_map]
  congr 2
  refine List.map_congr_left fun entry member => ?_
  exact (mirrors.mailbox_entry (List.mem_filter.mp member).1).symm

theorem findMailboxes_eq (mirrors : Mirrors regular log m d) (id : MessageId) :
    d.findMailboxes id = m.findMailboxes id := by
  unfold Database.Store.findMailboxes Memory.Store.findMailboxes
  rw [mirrors.requireRelations, mirrors.ensureAvailable, mirrors.mailboxesOf_eq]

/-- A counter that did not run over reads as it stands in memory. -/
theorem highestModSeq_eq (mirrors : Mirrors regular log m d) (proper : regular)
    (mailbox : MailboxId) :
    d.highestModSeq mailbox = m.highestModSeq mailbox := by
  have uid := (mirrors.lastUid mailbox).resolve_right fun overflow => overflow.1 proper
  have modSeq := (mirrors.highestModSeq mailbox).resolve_right fun overflow => overflow.1 proper
  have row : d.countersOf mailbox = ⟨.integer (m.countersOf mailbox).lastUid,
      .integer (m.countersOf mailbox).highestModSeq⟩ := by
    rw [← uid.1, ← modSeq.1]
  unfold Database.Store.highestModSeq Memory.Store.highestModSeq Database.Store.readCounters
  rw [mirrors.requireRelations, mirrors.ensureAvailable, row]
  rfl

theorem extent_eq (mirrors : Mirrors regular log m d) (proper : regular) :
    Storage.extent d = Storage.extent m := by
  show d.database.messages.size + d.database.changes.size + 1 = m.rows.size + m.changes.size + 1
  rw [mirrors.messages, Table.size_mapValues, mirrors.changes proper, ← mirrors.logged]
  rfl

/-- The rows of a mailbox with some numbers. -/
def chosen (m : Memory.Store) (mailbox : MailboxId) (uids : List Uid) : Table Place Message :=
  m.rows.filter fun place _ => place.mailbox = mailbox && uids.contains place.uid

theorem mem_storedUids {uids : List Uid} {uid : Uid} :
    uid ∈ Database.Store.storedUids uids ↔ uid ∈ uids ∧ uid ≤ maxStored := by
  rw [Database.Store.storedUids, List.mem_filter, decide_eq_true_eq]

/-- Numbers beyond what the database can hold choose no row. -/
theorem contains_storedUids (mirrors : Mirrors regular log m d) {uids : List Uid}
    {entry : Place × Message} (member : entry ∈ m.rows.entries) :
    (Database.Store.storedUids uids).contains entry.1.uid = uids.contains entry.1.uid := by
  have small := mirrors.uid_le (Table.get?_eq_some_iff.mpr member)
  rw [Bool.eq_iff_iff, List.contains_iff_mem, List.contains_iff_mem, mem_storedUids]
  exact and_iff_left small

/-- Among no numbers that the database can hold, no row is chosen. -/
theorem chosen_of_no_storedUids (mirrors : Mirrors regular log m d) (mailbox : MailboxId)
    {uids : List Uid} (nothing : Database.Store.storedUids uids = []) :
    (chosen m mailbox uids).entries = [] := by
  refine List.filter_eq_nil_iff.mpr fun entry member => ?_
  show ¬ (decide (entry.1.mailbox = mailbox) && uids.contains entry.1.uid) = true
  rw [← mirrors.contains_storedUids member, nothing]
  simp

theorem bindVariables (mirrors : Mirrors regular log m d) {count : Nat}
    (few : count ≤ maxVariables) :
    d.bindVariables count = .ok () :=
  if_pos (mirrors.variableLimit ▸ few)

theorem bindVariables_error (mirrors : Mirrors regular log m d) {count : Nat}
    (many : maxVariables < count) :
    d.bindVariables count = .error Database.EngineError.tooManyVariables.toStoreError :=
  if_neg (mirrors.variableLimit ▸ Nat.not_le.mpr many)

/-- The rows with some numbers are read as memory presents them, if their dates are plain. -/
theorem selectUids_of_plain (mirrors : Mirrors regular log m d) {mailbox : MailboxId}
    {uids : List Uid}
    (fetch : Fetch) (few : (Database.Store.storedUids uids).length + 1 ≤ maxVariables)
    (plain : ∀ row ∈ (chosen m mailbox uids).values, row.HasPlainDates) :
    d.selectUids mailbox uids fetch
      = .ok ((chosen m mailbox uids).values.map (m.present fetch)) := by
  unfold Database.Store.selectUids
  by_cases nothing : Database.Store.storedUids uids = []
  · rw [Table.values, mirrors.chosen_of_no_storedUids mailbox nothing, nothing]
    rfl
  · have rows := mirrors.selectMessages_of_plain fetch none
      (fun place _ => decide (place.mailbox = mailbox)
        && (Database.Store.storedUids uids).contains place.uid) _
      (fun entry member => by rw [mirrors.contains_storedUids member]) plain
    rw [if_neg (by rwa [List.isEmpty_iff]), mirrors.bindVariables few]
    exact rows

/-- The rows with some numbers cannot be read, if a date among them is not plain. -/
theorem selectUids_of_not_plain (mirrors : Mirrors regular log m d) {mailbox : MailboxId}
    {uids : List Uid} {row : Message} (fetch : Fetch)
    (member : row ∈ (chosen m mailbox uids).values) (signed : ¬ row.HasPlainDates) :
    ∃ e, d.selectUids mailbox uids fetch = .error e := by
  unfold Database.Store.selectUids
  by_cases nothing : Database.Store.storedUids uids = []
  · rw [Table.values, mirrors.chosen_of_no_storedUids mailbox nothing] at member
    cases member
  · rw [if_neg (by rwa [List.isEmpty_iff])]
    cases d.bindVariables ((Database.Store.storedUids uids).length + 1) with
    | error e => exact ⟨e, rfl⟩
    | ok _ =>
      exact mirrors.selectMessages_of_not_plain fetch none _ _
        (fun entry member => by rw [mirrors.contains_storedUids member]) member signed

/-- The rows of a batch in memory. -/
theorem fetchBatch_memory (mirrors : Mirrors regular log m d) {mailbox : MailboxId}
    {uids : List Uid} :
    m.fetchBatch mailbox uids fetch
      = .ok ((chosen m mailbox uids).values.map (m.present fetch)) := by
  unfold Memory.Store.fetchBatch
  rw [mirrors.ensureAvailable, mailboxRows_filter, chosen]
  refine congrArg (fun rows : Table Place Message => Except.ok (rows.values.map _))
    (Table.filter_congr fun entry member => ?_)
  rw [mirrors.uid_entry member]

section Readable

variable (mirrors : Mirrors regular log m d) (readable : ∀ row ∈ m.rows.values, row.HasPlainDates)

include mirrors readable

theorem find_eq (mailbox : MailboxId) (uid : Uid) (fetch : Fetch) :
    d.find mailbox uid fetch = m.find mailbox uid fetch :=
  mirrors.find_of_plain fun row found =>
    readable row (Table.mem_values_iff.mpr ⟨_, found⟩)

theorem fetchPage_eq (request : PageRequest) (fetch : Fetch) :
    d.fetchPage request fetch = m.fetchPage request fetch := by
  have inMemory : m.fetchPage request fetch
      = .ok ((m.pageRows request).map (m.present fetch)) := by
    unfold Memory.Store.fetchPage
    rw [mirrors.ensureAvailable]
    rfl
  rw [inMemory]
  unfold Database.Store.fetchPage
  split
  · rename_i nothing
    rw [mirrors.pageRows_eq_nil nothing]
    rfl
  · rw [mirrors.pageRows_eq, mirrors.selectMessages_of_plain fetch _ _ _
      (fun entry _ => onPage_encode request entry.1 entry.2)
      fun row member => readable row (mem_values_of_chosen (mem_of_mem_cut member))]

theorem fetchBatch_eq {mailbox : MailboxId} {uids : List Uid}
    (few : (Database.Store.storedUids uids).length + 1 ≤ maxVariables) (fetch : Fetch) :
    d.fetchBatch mailbox uids fetch = m.fetchBatch mailbox uids fetch := by
  rw [mirrors.fetchBatch_memory]
  refine mirrors.selectUids_of_plain fetch few fun row member => readable row ?_
  exact mem_values_of_chosen member

/-- What a batch answers in the database it answers in memory. -/
theorem fetchBatch_of_ok {mailbox : MailboxId} {uids : List Uid} {rows : List Message}
    (done : d.fetchBatch mailbox uids fetch = .ok rows) :
    m.fetchBatch mailbox uids fetch = .ok rows := by
  by_cases few : (Database.Store.storedUids uids).length + 1 ≤ maxVariables
  · rw [← mirrors.fetchBatch_eq readable few, done]
  · have several : ¬ (Database.Store.storedUids uids).isEmpty = true := by
      intro none
      rw [List.isEmpty_iff.mp none] at few
      exact few (by decide)
    unfold Database.Store.fetchBatch Database.Store.selectUids at done
    rw [if_neg several, mirrors.bindVariables_error (Nat.not_le.mp few)] at done
    cases done

end Readable

end Mirrors

end Mailroom.Mirror
