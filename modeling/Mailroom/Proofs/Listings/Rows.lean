import Mailroom.Proofs.Scans.Sources
/-!
Reads of messages as reads of one table.

A `Reader` tells what the rows of a table say, and `ReadsFrom` that a store answers every read of
messages from that table: a page is the first rows that lie on it, each decoded on its own, and the
other reads choose from the same rows. So a read that is run to its end delivers the rows that it
asks for (`ReadsFrom.scan_ends`), and the numbers of the same rows (`ReadsFrom.scanUids_eq`). Both
stores are read in this way (`Memory.Store.readsFrom`, `Database.Store.readsFrom`).
-/

namespace Mailroom

open Service

variable {σ ρ : Type}

/-- What the rows of a table say. -/
structure Reader (ρ : Type) where
  /-- Whether the flags of a row pass a filter. -/
  passes : Filter → ρ → Bool
  /-- Whether a row is that of a message. -/
  isOf : MessageId → ρ → Bool
  /-- The message that a row is read as, at its place. -/
  decode : Fetch → Place × ρ → Except StoreError Message
  /-- Whether a batch of numbers is taken. -/
  takes : List Uid → Except StoreError Unit

namespace Table

/-- The rows of one mailbox. -/
def inMailbox (t : Table Place ρ) (mailbox : MailboxId) : Table Place ρ :=
  t.filter fun place _ => place.mailbox = mailbox

/-- The rows of one mailbox that have some numbers. -/
def withUids (t : Table Place ρ) (mailbox : MailboxId) (uids : List Uid) : Table Place ρ :=
  (t.inMailbox mailbox).filter fun place _ => uids.contains place.uid

/-- The rows of one mailbox that lie on a page. -/
def onPage (t : Table Place ρ) (reader : Reader ρ) (page : PageRequest) : Table Place ρ :=
  (t.inMailbox page.mailbox).filter fun place row =>
    page.reaches place.uid && reader.passes page.filter row

theorem mem_inMailbox {t : Table Place ρ} {mailbox : MailboxId} {entry : Place × ρ} :
    entry ∈ (t.inMailbox mailbox).entries ↔ entry ∈ t.entries ∧ entry.1.mailbox = mailbox := by
  rw [inMailbox, entries_filter, List.mem_filter, decide_eq_true_eq]

theorem onPage_eq_filter {t : Table Place ρ} {reader : Reader ρ} {page : PageRequest} :
    t.onPage reader page = t.filter (liesOn page (reader.passes page.filter)) := filter_filter

theorem onPage_take_subset {t : Table Place ρ} {reader : Reader ρ} {page : PageRequest} :
    (t.onPage reader page).entries.take page.limit ⊆ t.entries := fun _ member =>
  (List.filter_sublist.trans List.filter_sublist).subset (List.mem_of_mem_take member)

end Table

/-- A store answers the reads of messages from a table of rows, each as a reader reads it. -/
structure ReadsFrom [Storage σ] (store : σ) (t : Table Place ρ) (reader : Reader ρ) : Prop where
  find : ∀ mailbox uid fetch, Storage.find mailbox uid fetch store
    = ((t.get? ⟨mailbox, uid⟩).mapM fun row => reader.decode fetch (⟨mailbox, uid⟩, row), store)
  fetchPage : ∀ page fetch, Storage.fetchPage page fetch store
    = (((t.onPage reader page).entries.take page.limit).mapM (reader.decode fetch), store)
  fetchUidPage : ∀ page, Storage.fetchUidPage page store
    = (.ok (((t.onPage reader page).entries.take page.limit).map (·.1.uid)), store)
  fetchBatch : ∀ mailbox uids fetch, Storage.fetchBatch mailbox uids fetch store
    = (reader.takes uids >>= fun _ => (t.withUids mailbox uids).entries.mapM (reader.decode fetch),
      store)
  counts : ∀ mailbox, Storage.counts mailbox store = (.ok ⟨(t.inMailbox mailbox).size,
    ((t.inMailbox mailbox).filter fun _ => reader.passes .unseen).size⟩, store)
  firstUnseen : ∀ mailbox, Storage.firstUnseen mailbox store = (.ok (((t.inMailbox mailbox).filter
    fun _ => reader.passes .unseen).entries.head?.map (·.1.uid)), store)
  findMailboxes : ∀ id, Storage.findMailboxes id store = (.ok (NameSet.ofList
    ((t.filter fun _ => reader.isOf id).entries.map (·.1.mailbox))).toList, store)
  /-- A row is read as a message at its place. -/
  place_eq : ∀ fetch, ∀ entry ∈ t.entries, ∀ message, reader.decode fetch entry = .ok message →
    message.place = entry.1
  extent : t.size < Storage.extent store

/-- The rows that a read asks for, but for its limit. -/
def Reader.asked (reader : Reader ρ) (t : Table Place ρ) (request : ScanRequest) :
    List (Place × ρ) :=
  (t.onPage reader (pageOf request none 0)).entries

namespace Reader

variable {reader : Reader ρ} {t : Table Place ρ} {request : ScanRequest}

theorem asked_sublist : (reader.asked t request).Sublist t.entries :=
  List.filter_sublist.trans List.filter_sublist

/-- The numbers of the rows that are asked for ascend. -/
theorem asked_ascending (reader : Reader ρ) (t : Table Place ρ) (request : ScanRequest) :
    (reader.asked t request).Pairwise fun entry later => entry.1.uid < later.1.uid := by
  rw [asked, Table.onPage_eq_filter]
  exact List.pairwise_map.mp liesOn_ascending

/-- The rows of a page past one of those that are asked for are those that come after it. -/
theorem onPage_after {before after : List (Place × ρ)} {entry : Place × ρ}
    (split : reader.asked t request = before ++ entry :: after) (limit : Nat) :
    (t.onPage reader (pageOf request (some entry.1.uid) limit)).entries = after := by
  have past : (t.onPage reader (pageOf request (some entry.1.uid) limit)).entries
      = (reader.asked t request).filter fun other => decide (entry.1.uid < other.1.uid) := by
    rw [asked, Table.onPage, Table.onPage, Table.entries_filter, Table.entries_filter,
      List.filter_filter]
    refine List.filter_congr fun other _ => ?_
    show (request.range.contains other.1.uid && decide (entry.1.uid < other.1.uid)
        && reader.passes request.filter other.2)
      = (decide (entry.1.uid < other.1.uid)
        && (request.range.contains other.1.uid && true && reader.passes request.filter other.2))
    rw [Bool.and_true, Bool.and_right_comm, Bool.and_comm]
  have ascending := asked_ascending reader t request
  rw [split] at ascending
  rw [past, split]
  exact filter_past (fun entry : Place × ρ => entry.1.uid) ascending

end Reader

namespace ReadsFrom

variable [Storage σ] {store : σ} {t : Table Place ρ} {reader : Reader ρ}

/-- The rows that a read of messages asks for are served in order. -/
theorem messages_serve (reads : ReadsFrom store t reader) (request : ScanRequest) (fetch : Fetch) :
    (messageSource request.mailbox request.range request.filter fetch :
      Source σ Uid Message).Serves store (reader.asked t request) (·.1.uid)
      (reader.decode fetch) where
  first limit := reads.fetchPage (pageOf request none limit) fetch
  later before entry after limit split := by
    rw [← Reader.onPage_after split limit]
    exact reads.fetchPage (pageOf request (some entry.1.uid) limit) fetch
  keeps entry member message decoded :=
    congrArg Place.uid (reads.place_eq fetch entry (Reader.asked_sublist.subset member) message
      decoded)

/-- The numbers of the same rows are served in order. -/
theorem uids_serve (reads : ReadsFrom store t reader) (request : ScanRequest) :
    (uidSource request.mailbox request.range request.filter :
      Source σ Uid Uid).Serves store (reader.asked t request) (·.1.uid)
      (fun entry => .ok entry.1.uid) := by
  have listed (entries : List (Place × ρ)) :
      entries.mapM (fun entry => Except.ok (ε := StoreError) entry.1.uid)
        = .ok (entries.map (·.1.uid)) := Outcomes.mapM_of_forall_ok fun _ _ => rfl
  constructor
  · intro limit
    rw [listed]
    exact reads.fetchUidPage (pageOf request none limit)
  · intro before entry after limit split
    rw [listed, ← Reader.onPage_after split limit]
    exact reads.fetchUidPage (pageOf request (some entry.1.uid) limit)
  · intro entry member uid decoded
    cases decoded
    rfl

theorem asked_length (reads : ReadsFrom store t reader) (request : ScanRequest) :
    (reader.asked t request).length < Storage.extent store :=
  Nat.lt_of_le_of_lt Reader.asked_sublist.length_le reads.extent

/-- A read of messages that is run to its end delivers the rows that it asks for, and is over. -/
theorem scan_ends (reads : ReadsFrom store t reader) (batch : Nat) (request : ScanRequest)
    (fetch : Fetch) :
    let outcome := drain (scan batch request fetch) store
    Delivered (reader.decode fetch) (cut request.limit (reader.asked t request)) outcome.1 ∧
      outcome.2.1.paging.finished = true ∧ outcome.2.2 = store :=
  Paging.start_ends (reads.messages_serve request fetch) batch request.limit
    (reads.asked_length request)

/-- A read of numbers that is run to its end is over. -/
theorem scanUids_ends (reads : ReadsFrom store t reader) (batch : Nat) (request : ScanRequest) :
    let outcome := drain (scanUids batch request) store
    Delivered (fun entry => .ok entry.1.uid) (cut request.limit (reader.asked t request))
        outcome.1 ∧ outcome.2.1.paging.finished = true ∧ outcome.2.2 = store :=
  Paging.start_ends (reads.uids_serve request) batch request.limit
    (reads.asked_length request)

/-- What it delivered are the numbers of the rows that it asks for. -/
theorem scanUids_eq (reads : ReadsFrom store t reader) (batch : Nat) (request : ScanRequest) :
    (drain (scanUids batch request) store).1
      = (cut request.limit ((reader.asked t request).map (·.1.uid))).map .ok := by
  obtain ⟨delivered, -⟩ := reads.scanUids_ends batch request
  rw [← map_cut]
  exact delivered.eq_of_decoded (Outcomes.mapM_of_forall_ok fun _ _ => rfl)

end ReadsFrom

/-! ### In memory -/

namespace Memory.Store

variable {m : Store}

/-- The rows in memory are read as they are presented, in batches of any size. -/
def reader (m : Store) : Reader Message where
  passes filter row := filter.admits row.flags
  isOf id row := row.messageId = id
  decode fetch entry := .ok (m.present fetch entry.2)
  takes _ := .ok ()

theorem decode_all (m : Store) (fetch : Fetch) (entries : List (Place × Message)) :
    entries.mapM (m.reader.decode fetch)
      = .ok ((entries.map (·.2)).map (m.present fetch)) := by
  rw [List.map_map]
  exact Outcomes.mapM_of_forall_ok fun _ _ => rfl

section Keyed

variable (on : m.available = true) (keyed : m.IsKeyed)

include on in
theorem find_eq_decode (mailbox : MailboxId) (uid : Uid) (fetch : Fetch) :
    m.find mailbox uid fetch = (m.rows.get? ⟨mailbox, uid⟩).mapM fun row =>
      m.reader.decode fetch (⟨mailbox, uid⟩, row) := by
  unfold find
  rw [ensureAvailable_ok.mpr on]
  cases m.rows.get? ⟨mailbox, uid⟩ <;> rfl

include keyed

/-- The rows of a mailbox that pass a test on their numbers and on themselves. -/
theorem mailboxRows_filter_uid {mailbox : MailboxId} (test : Uid → Message → Bool) :
    (m.mailboxRows mailbox).filter (fun row => test row.uid row)
      = ((m.rows.inMailbox mailbox).filter fun place row => test place.uid row).values := by
  refine (Table.values_filter fun entry member => ?_).symm
  rw [keyed.uid_entry entry (Table.mem_inMailbox.mp member).1]

theorem unseenRows_eq {mailbox : MailboxId} :
    (m.mailboxRows mailbox).filter (fun row => !row.flags.seen)
      = ((m.rows.inMailbox mailbox).filter fun _ => m.reader.passes .unseen).values :=
  mailboxRows_filter_uid keyed fun _ row => !row.flags.seen

theorem pageRows_eq_map (page : PageRequest) :
    m.pageRows page = ((m.rows.onPage m.reader page).entries.take page.limit).map (·.2) := by
  rw [pageRows, mailboxRows_filter_uid keyed
    fun uid row => page.reaches uid && page.filter.admits row.flags, List.map_take]
  rfl

include on

theorem fetchPage_eq_decode (page : PageRequest) (fetch : Fetch) : m.fetchPage page fetch
    = ((m.rows.onPage m.reader page).entries.take page.limit).mapM (m.reader.decode fetch) := by
  unfold fetchPage
  rw [ensureAvailable_ok.mpr on, pageRows_eq_map keyed, m.decode_all]
  rfl

theorem fetchUidPage_eq_map (page : PageRequest) : m.fetchUidPage page
    = .ok (((m.rows.onPage m.reader page).entries.take page.limit).map (·.1.uid)) := by
  unfold fetchUidPage
  rw [ensureAvailable_ok.mpr on, pageRows_eq_map keyed, List.map_map]
  refine congrArg Except.ok (List.map_congr_left fun entry member => ?_)
  have onPage := (List.mem_filter.mp (List.mem_of_mem_take member)).1
  exact keyed.uid_entry entry (Table.mem_inMailbox.mp onPage).1

theorem fetchBatch_eq_decode (mailbox : MailboxId) (uids : List Uid) (fetch : Fetch) :
    m.fetchBatch mailbox uids fetch
      = (m.rows.withUids mailbox uids).entries.mapM (m.reader.decode fetch) := by
  unfold fetchBatch
  rw [ensureAvailable_ok.mpr on, mailboxRows_filter_uid keyed fun uid _ => uids.contains uid]
  exact (m.decode_all fetch _).symm

theorem counts_eq_size (mailbox : MailboxId) :
    m.counts mailbox = .ok ⟨(m.rows.inMailbox mailbox).size,
      ((m.rows.inMailbox mailbox).filter fun _ => m.reader.passes .unseen).size⟩ := by
  unfold counts
  rw [ensureAvailable_ok.mpr on]
  show Except.ok (MailboxCounts.mk _ _) = _
  rw [unseenRows_eq keyed, mailboxRows, Table.values, Table.values, List.length_map,
    List.length_map]
  rfl

theorem firstUnseen_eq_head? (mailbox : MailboxId) :
    m.firstUnseen mailbox = .ok (((m.rows.inMailbox mailbox).filter
      fun _ => m.reader.passes .unseen).entries.head?.map (·.1.uid)) := by
  unfold firstUnseen
  rw [ensureAvailable_ok.mpr on, ← List.head?_filter, unseenRows_eq keyed, Table.values,
    List.head?_map, Option.map_map]
  refine congrArg Except.ok (Option.map_congr fun entry found => ?_)
  have chosen := (List.mem_filter.mp (List.mem_of_head? found)).1
  exact keyed.uid_entry entry (Table.mem_inMailbox.mp chosen).1

theorem findMailboxes_eq_places (id : MessageId) :
    m.findMailboxes id = .ok (NameSet.ofList
      ((m.rows.filter fun _ => m.reader.isOf id).entries.map (·.1.mailbox))).toList := by
  unfold findMailboxes
  rw [ensureAvailable_ok.mpr on]
  show Except.ok (m.mailboxesOf id) = _
  rw [mailboxesOf, Table.values, List.map_map]
  refine congrArg (fun names => Except.ok (NameSet.ofList names).toList)
    (List.map_congr_left fun entry member => ?_)
  have listed := (List.mem_filter.mp member).1
  exact congrArg Place.mailbox (keyed _ _ (Table.get?_eq_some_iff.mpr listed))

/-- A store in memory that is switched on is read from its rows. -/
theorem readsFrom : ReadsFrom m m.rows m.reader where
  find mailbox uid fetch := Prod.ext (find_eq_decode on mailbox uid fetch) rfl
  fetchPage page fetch := Prod.ext (fetchPage_eq_decode on keyed page fetch) rfl
  fetchUidPage page := Prod.ext (fetchUidPage_eq_map on keyed page) rfl
  fetchBatch mailbox uids fetch := Prod.ext (fetchBatch_eq_decode on keyed mailbox uids fetch) rfl
  counts mailbox := Prod.ext (counts_eq_size on keyed mailbox) rfl
  firstUnseen mailbox := Prod.ext (firstUnseen_eq_head? on keyed mailbox) rfl
  findMailboxes id := Prod.ext (findMailboxes_eq_places on keyed id) rfl
  place_eq fetch entry member message decoded := by
    cases decoded
    have here := keyed _ _ (Table.get?_eq_some_iff.mpr member)
    cases fetch <;> exact here
  extent := Nat.lt_succ_of_le (Nat.le_add_right _ _)

end Keyed

end Memory.Store

/-! ### In the database -/

namespace Database.Store

open Mirror (requireRelations_of_complete)

variable {d : Store}

/-- The rows of the database are read back one by one, in batches whose numbers fit into a
statement. -/
def reader (d : Store) : Reader MessageRow where
  passes filter row := row.passes filter
  isOf id row := row.messageId = .text id
  decode := readEntry d.database
  takes uids :=
    if (storedUids uids).isEmpty then .ok () else d.bindVariables ((storedUids uids).length + 1)

section Encoded

variable (complete : d.database.missing = []) (encoded : d.IsEncoded)

theorem onPage_entries (page : PageRequest) :
    (d.database.messages.onPage d.reader page).entries.take page.limit = d.pageEntries page := by
  rw [Table.onPage_eq_filter, pageEntries, onPage_eq]
  rfl

include encoded

/-- Rows of a mailbox with some numbers are those with the numbers that a row can have. -/
theorem withUids_eq (mailbox : MailboxId) (uids : List Uid) :
    d.database.messages.withUids mailbox uids = d.database.messages.filter fun place _ =>
      place.mailbox = mailbox && (storedUids uids).contains place.uid := by
  refine Table.filter_filter.trans (Table.filter_congr fun entry member => ?_)
  have fits := (encoded _ _ (Table.get?_eq_some_iff.mpr member)).1
  congr 1
  rw [Bool.eq_iff_iff, List.contains_iff_mem, List.contains_iff_mem, Mirror.Mirrors.mem_storedUids]
  exact (and_iff_left fits).symm

include complete

/-- What is selected is read back one by one. -/
theorem select_eq_mapM {fetch : Fetch} {keep : Place → MessageRow → Bool} {limit : Option Nat} :
    selectMessages d.database fetch keep limit
      = (cut limit (d.database.messages.filter keep).entries).mapM (readEntry d.database fetch) :=
  selectMessages_eq_mapM encoded.typed (requireRelations_of_complete complete _)

theorem find_eq_decode (mailbox : MailboxId) (uid : Uid) (fetch : Fetch) :
    d.find mailbox uid fetch = (d.database.messages.get? ⟨mailbox, uid⟩).mapM fun row =>
      d.reader.decode fetch (⟨mailbox, uid⟩, row) := by
  unfold find
  by_cases great : maxStored < uid
  · cases found : d.database.messages.get? ⟨mailbox, uid⟩ with
    | none =>
      rw [if_pos great]
      rfl
    | some row => exact absurd great (Nat.not_lt.mpr (encoded _ _ found).1)
  · rw [if_neg great, select_eq_mapM complete encoded, cut, Table.entries_filter_key]
    cases d.database.messages.get? ⟨mailbox, uid⟩ with
    | none => rfl
    | some row =>
      show ([_].mapM (readEntry d.database fetch) >>= _) = some <$> readEntry d.database fetch _
      rw [List.mapM_cons]
      cases readEntry d.database fetch (⟨mailbox, uid⟩, row) <;> rfl

theorem fetchPage_eq_decode (page : PageRequest) (fetch : Fetch) : d.fetchPage page fetch
    = ((d.database.messages.onPage d.reader page).entries.take page.limit).mapM
      (d.reader.decode fetch) := by
  rw [onPage_entries]
  unfold fetchPage
  split
  · rename_i nothing
    rw [pageEntries_eq_nil encoded nothing]
    rfl
  · exact select_eq_mapM complete encoded

theorem fetchUidPage_eq_map (page : PageRequest) : d.fetchUidPage page
    = .ok (((d.database.messages.onPage d.reader page).entries.take page.limit).map
      (·.1.uid)) := by
  rw [onPage_entries]
  unfold fetchUidPage
  split
  · rename_i nothing
    rw [pageEntries_eq_nil encoded nothing]
    rfl
  · rw [requireRelations_of_complete complete]
    rfl

theorem selectUids_eq_decode (mailbox : MailboxId) (uids : List Uid) (fetch : Fetch) :
    d.selectUids mailbox uids fetch = d.reader.takes uids >>= fun _ =>
      (d.database.messages.withUids mailbox uids).entries.mapM (d.reader.decode fetch) := by
  show _ = (if _ then _ else _) >>= _
  rw [withUids_eq encoded]
  unfold selectUids
  by_cases nothing : (storedUids uids).isEmpty = true
  · have none_chosen : (d.database.messages.filter fun place _ =>
        decide (place.mailbox = mailbox) && (storedUids uids).contains place.uid).entries
        = [] := by
      rw [List.isEmpty_iff.mp nothing]
      simp
    rw [if_pos nothing, if_pos nothing, none_chosen]
    rfl
  · rw [if_neg nothing, if_neg nothing]
    exact congrArg (_ >>= ·) (funext fun _ => select_eq_mapM complete encoded)

omit encoded in
theorem counts_eq_size (mailbox : MailboxId) :
    d.counts mailbox = .ok ⟨(d.database.messages.inMailbox mailbox).size,
      ((d.database.messages.inMailbox mailbox).filter fun _ => d.reader.passes .unseen).size⟩ := by
  unfold counts
  rw [requireRelations_of_complete complete]
  rfl

omit encoded in
theorem firstUnseen_eq_head? (mailbox : MailboxId) :
    d.firstUnseen mailbox = .ok (((d.database.messages.inMailbox mailbox).filter
      fun _ => d.reader.passes .unseen).entries.head?.map (·.1.uid)) := by
  unfold firstUnseen
  rw [requireRelations_of_complete complete, ← List.head?_filter]
  rfl

omit encoded in
theorem findMailboxes_eq_places (id : MessageId) :
    d.findMailboxes id = .ok (NameSet.ofList
      ((d.database.messages.filter fun _ => d.reader.isOf id).entries.map
        (·.1.mailbox))).toList := by
  unfold findMailboxes
  rw [requireRelations_of_complete complete]
  rfl

/-- A database with all its relations is read from its rows. -/
theorem readsFrom : ReadsFrom d d.database.messages d.reader where
  find mailbox uid fetch := Prod.ext (find_eq_decode complete encoded mailbox uid fetch) rfl
  fetchPage page fetch := Prod.ext (fetchPage_eq_decode complete encoded page fetch) rfl
  fetchUidPage page := Prod.ext (fetchUidPage_eq_map complete encoded page) rfl
  fetchBatch mailbox uids fetch :=
    Prod.ext (selectUids_eq_decode complete encoded mailbox uids fetch) rfl
  counts mailbox := Prod.ext (counts_eq_size complete mailbox) rfl
  firstUnseen mailbox := Prod.ext (firstUnseen_eq_head? complete mailbox) rfl
  findMailboxes id := Prod.ext (findMailboxes_eq_places complete id) rfl
  place_eq fetch entry member message decoded := by
    obtain ⟨place, row⟩ := entry
    obtain ⟨-, written, rfl⟩ := encoded _ _ (Table.get?_eq_some_iff.mpr member)
    exact (of_readEntry_eq_ok decoded).1
  extent := Nat.lt_succ_of_le (Nat.le_add_right _ _)

end Encoded

end Database.Store

end Mailroom
