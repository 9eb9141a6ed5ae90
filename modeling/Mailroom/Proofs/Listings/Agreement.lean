import Mailroom.Proofs.Listings.Rows
import Mathlib.Data.List.Basic
/-!
All reads of messages agree.

The reference is one list: the `shelf` of a store holds all its rows, in full and by ascending
place. What a read asks for is chosen from that list by `ScanRequest.picked` and
`PageRequest.picked`, which know nothing of cursors that are moved, of pages or of statements.
`ReadsAgree` says that every read answers from the list. It holds of every store whose rows can be
read back (`ReadsFrom.agree`): of a store in memory that is switched on, and of a database in which
every row is one that was written for a message whose dates have years of four digits
(`reads_agree`).
-/

namespace Mailroom

open Service

variable {σ ρ : Type}

/-! ### The reference -/

/-- A row as a read shows it. -/
def Fetch.shown (fetch : Fetch) (row : Message) : Message :=
  match fetch with
  | .metadata => row.withoutContent
  | .full => row

/-- The rows that a read asks for, but for its limit. -/
def Service.ScanRequest.picked (request : ScanRequest) (rows : List Message) : List Message :=
  rows.filter fun row => row.mailbox = request.mailbox && request.range.contains row.uid &&
    request.filter.admits row.flags

namespace PageRequest

/-- A read of everything that a page is one of. -/
def request (page : PageRequest) : ScanRequest where
  mailbox := page.mailbox
  range := page.range
  filter := page.filter

/-- The rows of a page: the first of those that the read asks for and that are above the cursor. -/
def picked (page : PageRequest) (rows : List Message) : List Message :=
  ((page.request.picked rows).filter fun row =>
    page.after.all fun after => after < row.uid).take page.limit

end PageRequest

/-- Every read of a store answers from the same list of rows, of which there is one at each place
where a row is stored. -/
structure ReadsAgree [Storage σ] (store : σ) (places : List Place) (rows : List Message) :
    Prop where
  placed : rows.map Message.place = places
  /-- The numbers of what is read of a mailbox ascend. -/
  ascending : ∀ request : ScanRequest,
    ((request.picked rows).map Message.uid).Pairwise (· < ·)
  /-- A read that is run to its end delivers what it asks for, whatever its pages hold, and then
  there is no next row. -/
  scan : ∀ batch request fetch, let outcome := drain (scan batch request fetch) store
    outcome.1 = (cut request.limit ((request.picked rows).map fetch.shown)).map .ok ∧
      (outcome.2.1.next outcome.2.2).1 = none ∧ outcome.2.2 = store
  scanUids : ∀ batch request, let outcome := drain (scanUids batch request) store
    outcome.1 = (cut request.limit ((request.picked rows).map Message.uid)).map .ok ∧
      (outcome.2.1.next outcome.2.2).1 = none ∧ outcome.2.2 = store
  fetchPage : ∀ page fetch, Storage.fetchPage page fetch store
    = (.ok ((page.picked rows).map fetch.shown), store)
  fetchUidPage : ∀ page, Storage.fetchUidPage page store
    = (.ok ((page.picked rows).map Message.uid), store)
  find : ∀ mailbox uid fetch, Storage.find mailbox uid fetch store
    = (.ok ((rows.find? (·.place = ⟨mailbox, uid⟩)).map fetch.shown), store)
  findByUids : ∀ mailbox uid fetch, findByUids mailbox [uid] fetch store
    = (.ok ((rows.find? (·.place = ⟨mailbox, uid⟩)).map fetch.shown).toList, store)

/-- A batch of one number is a single partition. -/
theorem findByUids_singleton [Storage σ] (mailbox : MailboxId) (uid : Uid) (fetch : Fetch)
    (store : σ) : findByUids mailbox [uid] fetch store
      = Storage.fetchBatch mailbox [uid] fetch store := by
  show runPartitioned (Storage.listBound store)
    (fun uids => (Storage.fetchBatch mailbox uids fetch : Step σ (List Message))) [uid] store = _
  exact runPartitioned_single (List.cons_ne_nil uid []) (Nat.le_max_right _ _) store

/-! ### Rows that can be told -/

namespace Reader

/-- The rows of a table, in full. -/
def shelf (reader : Reader ρ) (t : Table Place ρ) : List Message :=
  t.entries.filterMap fun entry => (reader.decode .full entry).toOption

/-- Every row of a table can be read, as the same message by every read, and passes the filters that
admit its flags. A single number is always taken. -/
structure Tells (reader : Reader ρ) (t : Table Place ρ) : Prop where
  decode : ∀ entry ∈ t.entries, ∃ row,
    (∀ fetch, reader.decode fetch entry = .ok (fetch.shown row)) ∧
      ∀ filter, reader.passes filter entry.2 = filter.admits row.flags
  takes : ∀ uid, reader.takes [uid] = .ok ()

/-- The message that a row is read as in full, if it can be read. -/
def told (reader : Reader ρ) (entry : Place × ρ) : Message :=
  (reader.decode .full entry).toOption.getD default

namespace Tells

variable {reader : Reader ρ} {t : Table Place ρ}

theorem of_mem (tells : reader.Tells t) {entry : Place × ρ} (member : entry ∈ t.entries) :
    (∀ fetch, reader.decode fetch entry = .ok (fetch.shown (reader.told entry))) ∧
      ∀ filter, reader.passes filter entry.2 = filter.admits (reader.told entry).flags := by
  obtain ⟨row, decoded, passes⟩ := tells.decode entry member
  have same : reader.told entry = row := by
    unfold told
    rw [decoded .full]
    rfl
  exact same ▸ ⟨decoded, passes⟩

theorem shelf_eq (tells : reader.Tells t) : reader.shelf t = t.entries.map reader.told := by
  refine List.filterMap_eq_map_iff_forall_eq_some.mpr fun entry member => ?_
  rw [(tells.of_mem member).1 .full]
  rfl

/-- Rows of the table are read as they are told. -/
theorem mapM_eq (tells : reader.Tells t) {entries : List (Place × ρ)} (among : entries ⊆ t.entries)
    (fetch : Fetch) :
    entries.mapM (reader.decode fetch) = .ok ((entries.map reader.told).map fetch.shown) := by
  rw [List.map_map]
  exact Outcomes.mapM_of_forall_ok fun entry member => (tells.of_mem (among member)).1 fetch

end Tells

end Reader

namespace ReadsFrom

variable [Storage σ] {store : σ} {t : Table Place ρ} {reader : Reader ρ}
  (reads : ReadsFrom store t reader) (tells : reader.Tells t)

include reads tells

/-- A row is told to lie at its place. -/
theorem place_told {entry : Place × ρ} (member : entry ∈ t.entries) :
    (reader.told entry).place = entry.1 :=
  reads.place_eq .full entry member _ ((tells.of_mem member).1 .full)

/-- What is chosen from the table is told as what is chosen from the shelf. -/
theorem filter_told (keep : Place → ρ → Bool) (test : Message → Bool)
    (same : ∀ entry ∈ t.entries, (reader.told entry).place = entry.1 →
      (∀ filter, reader.passes filter entry.2 = filter.admits (reader.told entry).flags) →
      test (reader.told entry) = keep entry.1 entry.2) :
    (t.filter keep).entries.map reader.told = (reader.shelf t).filter test := by
  rw [tells.shelf_eq, List.filter_map]
  refine congrArg (List.map _) (List.filter_congr fun entry member => Eq.symm ?_)
  exact same entry member (reads.place_told tells member) (tells.of_mem member).2

/-- The rows that a read asks for are those that are picked from the shelf. -/
theorem asked_told (request : ScanRequest) :
    (reader.asked t request).map reader.told = request.picked (reader.shelf t) := by
  rw [Reader.asked, Table.onPage_eq_filter]
  refine reads.filter_told tells _ _ fun entry _ placed passes => ?_
  rw [liesOn, passes, ← placed, ← Bool.and_assoc]
  show _ = (_ && (request.range.contains _ && true) && _)
  rw [Bool.and_true]
  rfl

/-- The rows of a page are those that are picked from the shelf. -/
theorem page_told (page : PageRequest) :
    ((t.onPage reader page).entries.take page.limit).map reader.told
      = page.picked (reader.shelf t) := by
  rw [Table.onPage_eq_filter, PageRequest.picked, Service.ScanRequest.picked, List.filter_filter,
    List.map_take]
  refine congrArg (List.take page.limit) ?_
  refine reads.filter_told tells _ _ fun entry _ placed passes => ?_
  rw [liesOn, PageRequest.reaches, passes, ← placed, Bool.and_comm, Bool.and_right_comm,
    ← Bool.and_assoc, ← Bool.and_assoc]
  rfl

/-- The row at a place is told as the one of the shelf. -/
theorem get?_told (place : Place) :
    (t.get? place).map (fun row => reader.told (place, row))
      = (reader.shelf t).find? (·.place = place) := by
  have chosen := reads.filter_told tells (fun other _ => decide (other = place))
    (fun row => decide (row.place = place)) fun entry _ placed _ => by rw [placed]
  rw [← List.head?_filter, ← chosen, Table.entries_filter_key]
  cases t.get? place <;> rfl

/-- The numbers of rows are those that they are told to have. -/
theorem uids_told {entries : List (Place × ρ)} (among : entries ⊆ t.entries) :
    entries.map (·.1.uid) = (entries.map reader.told).map Message.uid := by
  rw [List.map_map]
  exact List.map_congr_left fun entry member =>
    congrArg Place.uid (reads.place_told tells (among member)).symm

theorem find_told (mailbox : MailboxId) (uid : Uid) (fetch : Fetch) :
    ((t.get? ⟨mailbox, uid⟩).mapM fun row => reader.decode fetch (⟨mailbox, uid⟩, row))
      = .ok (((reader.shelf t).find? (·.place = ⟨mailbox, uid⟩)).map fetch.shown) := by
  rw [← reads.get?_told tells]
  cases found : t.get? ⟨mailbox, uid⟩ with
  | none => rfl
  | some row =>
    have decoded := (tells.of_mem (Table.get?_eq_some_iff.mp found)).1 fetch
    show some <$> reader.decode fetch (⟨mailbox, uid⟩, row) = _
    rw [decoded]
    rfl

/-- The rows of a batch of one number are at most one. -/
theorem batch_told (mailbox : MailboxId) (uid : Uid) (fetch : Fetch) :
    (reader.takes [uid] >>= fun _ =>
        (t.withUids mailbox [uid]).entries.mapM (reader.decode fetch))
      = .ok (((reader.shelf t).find? (·.place = ⟨mailbox, uid⟩)).map fetch.shown).toList := by
  have chosen : t.withUids mailbox [uid]
      = t.filter fun place _ => decide (place = ⟨mailbox, uid⟩) := by
    refine Table.filter_filter.trans (Table.filter_congr fun entry _ => ?_)
    obtain ⟨⟨here, number⟩, row⟩ := entry
    simp
  rw [tells.takes, Outcomes.ok_bind, chosen, Table.entries_filter_key, ← reads.get?_told tells]
  cases found : t.get? ⟨mailbox, uid⟩ with
  | none => rfl
  | some row =>
    have decoded := (tells.of_mem (Table.get?_eq_some_iff.mp found)).1 fetch
    show [(⟨mailbox, uid⟩, row)].mapM (reader.decode fetch) = _
    rw [List.mapM_cons, decoded]
    rfl

/-- A store whose rows can all be told answers every read from its shelf. -/
theorem agree : ReadsAgree store (t.entries.map (·.1)) (reader.shelf t) where
  placed := by
    rw [tells.shelf_eq, List.map_map]
    exact List.map_congr_left fun entry member => reads.place_told tells member
  ascending request := by
    rw [← reads.asked_told tells, ← reads.uids_told tells Reader.asked_sublist.subset]
    exact List.pairwise_map.mpr (Reader.asked_ascending reader t request)
  scan batch request fetch := by
    obtain ⟨delivered, ended, same⟩ := reads.scan_ends batch request fetch
    refine ⟨delivered.eq_of_decoded ?_, Paging.next_of_over ended (Paging.rest_buffer _), same⟩
    have among : cut request.limit (reader.asked t request) ⊆ t.entries := fun entry member =>
      Reader.asked_sublist.subset (mem_of_mem_cut member)
    rw [tells.mapM_eq among, map_cut, reads.asked_told tells, map_cut]
  scanUids batch request := by
    obtain ⟨-, ended, same⟩ := reads.scanUids_ends batch request
    refine ⟨?_, Paging.next_of_over ended (Paging.rest_buffer _), same⟩
    rw [reads.scanUids_eq, reads.uids_told tells Reader.asked_sublist.subset,
      reads.asked_told tells]
  fetchPage page fetch := by
    rw [reads.fetchPage, tells.mapM_eq Table.onPage_take_subset, reads.page_told tells]
  fetchUidPage page := by
    rw [reads.fetchUidPage, reads.uids_told tells Table.onPage_take_subset, reads.page_told tells]
  find mailbox uid fetch := by rw [reads.find, reads.find_told tells]
  findByUids mailbox uid fetch := by
    rw [findByUids_singleton, reads.fetchBatch, reads.batch_told tells]

end ReadsFrom

/-! ### The two stores -/

namespace Memory.Store

/-- A store that is switched on, whose rows lie at their own places and carry no content. -/
structure IsLegible (m : Store) : Prop where
  available : m.available = true
  keyed : m.IsKeyed
  bare : ∀ place row, m.rows.get? place = some row → row.content = none

/-- All rows in memory, in full. -/
def shelf (m : Store) : List Message := m.reader.shelf m.rows

theorem IsLegible.tells {m : Store} (legible : m.IsLegible) : m.reader.Tells m.rows where
  decode entry member := by
    have bare := legible.bare _ _ (Table.get?_eq_some_iff.mpr member)
    refine ⟨m.present .full entry.2, fun fetch => ?_, fun filter => rfl⟩
    cases fetch with
    | full => rfl
    | metadata =>
      show Except.ok entry.2 = .ok { entry.2 with content := none }
      rw [← bare]
  takes _ := rfl

end Memory.Store

namespace Database

variable {message : Message} {place : Place} {keywords : NameSet}

/-- A content that can be unpacked is read as if it had just been packed. -/
theorem MessageValues.read_unpacked {values : MessageValues} {stored : Option StoredContent}
    {content : Option Octets} (unpacked : stored.map StoredContent.unpack? = content.map some) :
    values.read place keywords stored = values.read place keywords (content.map .packed) := by
  unfold MessageValues.read
  cases stored with
  | none =>
    rw [Option.map_eq_none_iff.mp unpacked.symm]
    rfl
  | some packed =>
    obtain ⟨octets, rfl, same⟩ := Option.map_eq_some_iff.mp unpacked.symm
    simp only [← same]
    rfl

/-- A database with all its relations, in which every row is one that was written for a message
whose number fits and whose dates have years of four digits, and every content can be unpacked. A
statement can carry two parameters. -/
structure Store.IsLegible (d : Store) : Prop where
  complete : d.database.missing = []
  written : ∀ place row, d.database.messages.get? place = some row → place.uid ≤ maxStored ∧
    ∃ message : Message, message.HasPlainDates ∧ row = .encode message
  unpacked : ∀ id stored, d.database.contents.get? id = some stored →
    ∃ content, stored.unpack? = some content
  carries : 2 ≤ d.variableLimit

namespace Store

variable {d : Store}

/-- All rows of the database, in full. -/
def shelf (d : Store) : List Message := d.reader.shelf d.database.messages

namespace IsLegible

theorem encoded (legible : d.IsLegible) : d.IsEncoded := by
  intro place row found
  obtain ⟨fits, message, -, rfl⟩ := legible.written place row found
  exact ⟨fits, message, rfl⟩

theorem tells (legible : d.IsLegible) : d.reader.Tells d.database.messages where
  decode entry member := by
    obtain ⟨place, row⟩ := entry
    obtain ⟨-, message, plain, rfl⟩ := legible.written _ _ (Table.get?_eq_some_iff.mpr member)
    obtain ⟨content, unpacked⟩ : ∃ content : Option Octets,
        (d.database.contents.get? message.messageId).map StoredContent.unpack?
          = content.map some := by
      cases stored : d.database.contents.get? message.messageId with
      | none => exact ⟨none, rfl⟩
      | some packed =>
        obtain ⟨content, unpacked⟩ := legible.unpacked _ _ stored
        exact ⟨some content, congrArg some unpacked⟩
    refine ⟨{ message.asWritten with
      mailbox := place.mailbox
      uid := place.uid
      flags := { message.flags with keywords := keywordsAt d.database place }
      content }, fun fetch => ?_, fun filter => ?_⟩
    · show readEntry d.database fetch _ = _
      rw [readEntry_encode]
      cases fetch with
      | metadata =>
        show (MessageValues.encode message).read place _ ((none : Option Octets).map .packed) = _
        exact MessageRow.read_of_plain plain
      | full => exact (MessageValues.read_unpacked unpacked).trans (MessageRow.read_of_plain plain)
    · exact MessageRow.passes_encode.trans admits_keywords.symm
  takes uid := by
    show (if _ then _ else d.bindVariables ((storedUids [uid]).length + 1)) = _
    split
    · rfl
    · refine if_pos (Nat.le_trans ?_ legible.carries)
      exact Nat.succ_le_succ (List.length_filter_le _ _)

end IsLegible

end Store

end Database

/-- In memory and in the database all reads of messages agree: whatever the range, the filter, the
cursor, the limit and the pages, they answer the rows of one list that lie in the mailbox and the
range and pass the filter, by ascending number. -/
theorem reads_agree {m : Memory.Store} {d : Database.Store} (legible : m.IsLegible)
    (legible' : d.IsLegible) :
    ReadsAgree m (m.rows.entries.map (·.1)) m.shelf ∧
      ReadsAgree d (d.database.messages.entries.map (·.1)) d.shelf :=
  ⟨(Memory.Store.readsFrom legible.available legible.keyed).agree legible.tells,
    (Database.Store.readsFrom legible'.complete legible'.encoded).agree legible'.tells⟩

/-- Two rows of one message, one of them under the greatest number. -/
def distantRows : Table Place Message :=
  let first : MessageDraft := { mailbox := "inbox", uid := 1, messageId := "m1" }
  let last : MessageDraft := { first with uid := maxStored, flags := { seen := true } }
  ((Table.empty.insert ⟨"inbox", maxStored⟩ (last.build .epoch)).insert ⟨"inbox", 1⟩
    (first.build .epoch))

/-- A store in memory with these rows. -/
def distantInMemory : Memory.Store :=
  { Memory.Store.new 2 with
    rows := distantRows
    contents := Table.empty.insert "m1" [104, 105] }

/-- A database with these rows. -/
def distantInDatabase : Database.Store :=
  { Database.Store.new "mail" 2 with
    database := { Database.fresh with
      messages := distantRows.mapValues fun _ => .encode
      keywords := [(⟨"inbox", maxStored⟩, "later")]
      contents := Table.empty.insert "m1" (.packed [104, 105]) } }

theorem reads_agree_distantRows :
    (distantInMemory.IsLegible ∧ distantInDatabase.IsLegible) ∧
      ReadsAgree distantInMemory [⟨"inbox", 1⟩, ⟨"inbox", maxStored⟩] distantInMemory.shelf ∧
      ReadsAgree distantInDatabase [⟨"inbox", 1⟩, ⟨"inbox", maxStored⟩]
        distantInDatabase.shelf := by
  have rows : ∀ entry ∈ distantRows.entries, (entry.2.place = entry.1 ∧ entry.2.content = none) ∧
      entry.1.uid ≤ maxStored ∧ entry.2.HasPlainDates := by decide +kernel
  have rowAt {place : Place} {row : Message} (found : distantRows.get? place = some row) :=
    rows (place, row) (Table.get?_eq_some_iff.mp found)
  have legible : distantInMemory.IsLegible :=
    ⟨rfl, fun _ _ found => (rowAt found).1.1, fun _ _ found => (rowAt found).1.2⟩
  have legible' : distantInDatabase.IsLegible := by
    refine ⟨rfl, fun place row found => ?_, fun id stored found => ?_, by decide⟩
    · have found : (distantRows.mapValues fun _ => Database.MessageRow.encode).get? place
          = some row := found
      rw [Table.get?_mapValues] at found
      obtain ⟨message, stored, rfl⟩ := Option.map_eq_some_iff.mp found
      exact ⟨(rowAt stored).2.1, message, (rowAt stored).2.2, rfl⟩
    · have found : (Table.empty.insert "m1" (Database.StoredContent.packed [104, 105])).get? id
          = some stored := found
      rw [Table.get?_insert] at found
      split at found
      · cases found
        exact ⟨_, rfl⟩
      · cases found
  exact ⟨⟨legible, legible'⟩, reads_agree legible legible'⟩

/-- A page above the first row holds the last, whatever the range ends with. -/
example : (PageRequest.picked ⟨"inbox", .between 0 maxWord, .any, some 1, 5⟩
    distantInMemory.shelf).map Message.uid = [maxStored] := by decide +kernel

end Mailroom
