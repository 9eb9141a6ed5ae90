import Mailroom.Proofs.Database.Reads
import Mailroom.Proofs.Memory.Places
import Mailroom.Proofs.Scans.Reading
/-!
Reads of the messages of a mailbox, whatever is written to it in between.

Both stores answer a page with the first rows of a table that lie in the mailbox and pass a test
(`isPage_rows`), and each of them as the store finds it on its own. So a read of either store reads
committed rows (`scans_readCommitted`).
-/

namespace Mailroom

open Service Revised

variable {σ : Type} [Storage σ]

/-- The number of a row that lies in the range of a read and whose flags pass its filter. -/
def IsListed [Sound σ] [Revised σ] (request : ScanRequest) (store : σ) (uid : Uid) : Prop :=
  request.range.contains uid = true ∧
    ∃ r, (view store).revisionAt ⟨request.mailbox, uid⟩ = some r ∧
      request.filter.admits r.flags = true

/-- The row that a store finds at its number, which lies in the range of a read and whose flags pass
its filter. -/
def IsFound (request : ScanRequest) (fetch : Fetch) (store : σ) (row : Message) : Prop :=
  (Storage.find request.mailbox row.uid fetch store).1 = .ok (some row) ∧
    request.range.contains row.uid = true ∧ request.filter.admits row.flags = true

/-- One page of a read. -/
def pageOf (request : ScanRequest) (after : Option Uid) (limit : Nat) : PageRequest where
  mailbox := request.mailbox
  range := request.range
  filter := request.filter
  after := after
  limit := limit

theorem reaches_iff {request : PageRequest} {uid : Uid} : request.reaches uid = true ↔
    request.range.contains uid = true ∧ ∀ cursor ∈ request.after, cursor < uid := by
  unfold PageRequest.reaches
  rw [Bool.and_eq_true, Option.all_eq_true]
  simp only [decide_eq_true_eq, Option.mem_def]

section Rows

variable {α : Type} {t : Table Place α} {request : PageRequest} {passes : α → Bool}

/-- Whether a row lies in the mailbox of a page, in its range and past its cursor, and passes a
test. -/
def liesOn (request : PageRequest) (passes : α → Bool) (place : Place) (row : α) : Bool :=
  place.mailbox = request.mailbox && (request.reaches place.uid && passes row)

theorem mem_liesOn {place : Place} {row : α} :
    (place, row) ∈ (t.filter (liesOn request passes)).entries ↔
      t.get? place = some row ∧ place.mailbox = request.mailbox ∧
        request.reaches place.uid = true ∧ passes row = true := by
  unfold liesOn
  rw [← Table.get?_eq_some_iff, Table.get?_filter, Option.filter_eq_some_iff]
  simp only [Bool.and_eq_true, decide_eq_true_eq]

/-- The numbers of the rows of one mailbox ascend. -/
theorem liesOn_ascending :
    ((t.filter (liesOn request passes)).entries.map (·.1.uid)).Pairwise (· < ·) := by
  refine List.pairwise_map.mpr ((Table.ascending _).imp_of_mem ?_)
  rintro ⟨place, row⟩ ⟨later, row'⟩ first second before
  have here := (mem_liesOn.mp first).2.1.trans (mem_liesOn.mp second).2.1.symm
  rw [show place = ⟨later.mailbox, place.uid⟩ from here ▸ rfl, Mirror.compare_place] at before
  exact Nat.compare_eq_lt.mp before

/-- The first rows of a mailbox past a cursor that pass a test make up a page. -/
theorem isPage_rows (request : PageRequest) {Matches : Uid → Prop}
    (isMatch : ∀ uid, Matches uid ↔ request.range.contains uid = true ∧
      ∃ row, t.get? ⟨request.mailbox, uid⟩ = some row ∧ passes row = true) :
    IsPage Matches request.after request.limit
      (((t.filter (liesOn request passes)).entries.take request.limit).map (·.1.uid)) := by
  rw [List.map_take]
  refine .of_take request.limit liesOn_ascending fun uid => ?_
  rw [isMatch, and_right_comm, ← reaches_iff]
  constructor
  · intro member
    obtain ⟨⟨⟨mailbox, uid⟩, row⟩, listed, rfl⟩ := List.mem_map.mp member
    obtain ⟨stored, rfl, reached, passed⟩ := mem_liesOn.mp listed
    exact ⟨reached, row, stored, passed⟩
  · rintro ⟨reached, row, stored, passed⟩
    have listed := mem_liesOn.mpr ⟨stored, rfl, reached, passed⟩
    exact List.mem_map_of_mem listed

end Rows

/-! ### In memory -/

namespace Memory.Store

variable {m : Store}

theorem IsKeyed.uid_entry (keyed : m.IsKeyed) (entry : Place × Message)
    (member : entry ∈ m.rows.entries) : entry.2.uid = entry.1.uid :=
  congrArg Place.uid (keyed _ _ (Table.get?_eq_some_iff.mpr member))

theorem isListed_iff {request : ScanRequest} {uid : Uid} : IsListed request m uid ↔
    request.range.contains uid = true ∧
      ∃ row, m.rows.get? ⟨request.mailbox, uid⟩ = some row ∧
        request.filter.admits row.flags = true := by
  refine and_congr_right fun _ => ?_
  show (∃ r, (m.rows.get? _).map _ = some r ∧ _) ↔ _
  cases m.rows.get? ⟨request.mailbox, uid⟩ <;> simp

/-- A page holds the first rows that match. -/
theorem pageRows_isPage (keyed : m.IsKeyed) (request : ScanRequest) (after : Option Uid)
    (limit : Nat) : IsPage (IsListed request m) after limit
      ((m.pageRows (pageOf request after limit)).map Message.uid) := by
  have isPage := isPage_rows (pageOf request after limit) fun uid => m.isListed_iff
  rw [Mirror.Mirrors.pageRows_of_uids keyed.uid_entry, Table.values, ← map_cut,
    List.map_map]
  refine (List.map_congr_left fun entry member => ?_) ▸ isPage
  have listed := List.mem_filter.mp (List.mem_of_mem_take member)
  exact (keyed.uid_entry entry listed.1).symm

/-- A row on a page is the one that is stored at its number. -/
theorem stored_of_mem_pageRows (keyed : m.IsKeyed) {request : PageRequest} {row : Message}
    (member : row ∈ m.pageRows request) : m.rows.get? ⟨request.mailbox, row.uid⟩ = some row ∧
      request.range.contains row.uid = true ∧ request.filter.admits row.flags = true := by
  obtain ⟨inMailbox, onPage⟩ := List.mem_filter.mp (List.mem_of_mem_take member)
  obtain ⟨place, found⟩ := Table.mem_values_iff.mp inMailbox
  rw [Table.get?_filter, Option.filter_eq_some_iff, decide_eq_true_eq] at found
  obtain ⟨stored, inside⟩ := found
  obtain ⟨reached, passed⟩ := Bool.and_eq_true_iff.mp onPage
  have here : place = ⟨request.mailbox, row.uid⟩ := by
    rw [← inside, show row.uid = place.uid from congrArg Place.uid (keyed place row stored)]
  exact ⟨here ▸ stored, (reaches_iff.mp reached).1, passed⟩

theorem messages_paged (request : ScanRequest) (fetch : Fetch) :
    (messageSource request.mailbox request.range request.filter fetch :
      Source Store Uid Message).IsPaged IsKeyed (IsListed request) (IsFound request fetch) where
  looks after limit m := PureReads.fetchPage (pageOf request after limit) fetch m
  page after limit m keyed rows done := by
    obtain ⟨_, on, done⟩ := Outcomes.bind_eq_ok.mp done
    cases done
    refine ⟨?_, fun row member => ?_⟩
    · have isPage := pageRows_isPage keyed request after limit
      rw [List.map_map]
      refine (List.map_congr_left fun row _ => ?_) ▸ isPage
      cases fetch <;> rfl
    · obtain ⟨stored, onPage, rfl⟩ := List.mem_map.mp member
      obtain ⟨found, inRange, passed⟩ := stored_of_mem_pageRows keyed onPage
      have same : (m.present fetch stored).uid = stored.uid ∧
          (m.present fetch stored).flags = stored.flags := by cases fetch <;> exact ⟨rfl, rfl⟩
      refine ⟨?_, same.1 ▸ inRange, same.2 ▸ passed⟩
      show m.find request.mailbox _ fetch = _
      unfold find
      rw [same.1, on, found]
      rfl

theorem uids_paged (request : ScanRequest) :
    (uidSource request.mailbox request.range request.filter :
      Source Store Uid Uid).IsPaged IsKeyed (IsListed request) (IsListed request) where
  looks after limit m := PureReads.fetchUidPage (pageOf request after limit) m
  page after limit m keyed uids done := by
    obtain ⟨_, -, done⟩ := Outcomes.bind_eq_ok.mp done
    cases done
    have isPage := pageRows_isPage keyed request after limit
    refine ⟨?_, fun uid member => (isPage.matching uid member).1⟩
    exact (List.map_id _).symm ▸ isPage

end Memory.Store

/-! ### In the database -/

namespace Database.Store

variable {d : Store}

theorem admits_keywords {filter : Filter} {flags : Flags} {keywords : NameSet} :
    filter.admits { flags with keywords } = filter.admits flags := by
  cases filter <;> rfl

theorem isListed_iff (encoded : d.IsEncoded) {request : ScanRequest} {uid : Uid} :
    IsListed request d uid ↔ request.range.contains uid = true ∧
      ∃ row, d.database.messages.get? ⟨request.mailbox, uid⟩ = some row ∧
        row.passes request.filter = true := by
  refine and_congr_right fun _ => ?_
  show (∃ r, (d.database.messages.get? _).bind _ = some r ∧ _) ↔ _
  cases found : d.database.messages.get? ⟨request.mailbox, uid⟩ with
  | none => simp
  | some row =>
    obtain ⟨-, message, rfl⟩ := encoded _ _ found
    have passes : (MessageRow.encode message).passes request.filter
        = request.filter.admits ((MessageValues.encode message).revision
          (keywordsAt d.database ⟨request.mailbox, uid⟩)).flags :=
      MessageRow.passes_encode.trans admits_keywords.symm
    rw [Option.bind_some, MessageRow.values_encode]
    simp [passes, Except.toOption]

/-- The entries of a page. -/
def pageEntries (d : Store) (page : PageRequest) : List (Place × MessageRow) :=
  (d.database.messages.filter (onPage page)).entries.take page.limit

theorem onPage_eq {page : PageRequest} :
    onPage page = liesOn page fun row => row.passes page.filter :=
  funext fun _ => funext fun _ => Bool.and_assoc _ _ _

/-- The entries of a page are the first that match. -/
theorem pageEntries_isPage (encoded : d.IsEncoded) (request : ScanRequest) (after : Option Uid)
    (limit : Nat) : IsPage (IsListed request d) after limit
      ((d.pageEntries (pageOf request after limit)).map (·.1.uid)) := by
  rw [pageEntries, onPage_eq]
  exact isPage_rows (pageOf request after limit) fun uid => isListed_iff encoded

/-- An entry of a page is that of a message in the mailbox and the range whose flags pass the
filter. -/
theorem of_mem_pageEntries (encoded : d.IsEncoded) {page : PageRequest} {place : Place}
    {row : MessageRow} (member : (place, row) ∈ d.pageEntries page) :
    d.database.messages.get? place = some row ∧ place.mailbox = page.mailbox ∧
      page.range.contains place.uid = true ∧
      ∃ message, row = .encode message ∧ page.filter.admits message.flags = true := by
  rw [pageEntries, onPage_eq] at member
  obtain ⟨found, here, reached, passed⟩ := mem_liesOn.mp (List.mem_of_mem_take member)
  obtain ⟨-, message, rfl⟩ := encoded _ _ found
  rw [MessageRow.passes_encode] at passed
  exact ⟨found, here, (reaches_iff.mp reached).1, message, rfl, passed⟩

/-- A page that asks for numbers that no row can have, or for no rows, has none. -/
theorem pageEntries_eq_nil (encoded : d.IsEncoded) {page : PageRequest}
    (nothing : (isBeyondRows page || decide (page.limit = 0)) = true) :
    d.pageEntries page = [] := by
  rcases Bool.or_eq_true_iff.mp nothing with beyond | zero
  · have none_chosen : (d.database.messages.filter (onPage page)).entries = [] := by
      refine List.filter_eq_nil_iff.mpr fun entry member => ?_
      have fits := (encoded _ _ (Table.get?_eq_some_iff.mpr member)).1
      rw [onPage, Mirror.Mirrors.reaches_of_isBeyondRows beyond fits]
      simp
    rw [pageEntries, none_chosen, List.take_nil]
  · rw [pageEntries, of_decide_eq_true zero, List.take_zero]

theorem fetchPage_eq_ok (encoded : d.IsEncoded) {page : PageRequest} {fetch : Fetch}
    {rows : List Message} (done : d.fetchPage page fetch = .ok rows) :
    (d.pageEntries page).mapM (readEntry d.database fetch) = .ok rows ∧
      (rows ≠ [] → requireRelations d.database (readRelations fetch) = .ok ()) := by
  unfold fetchPage at done
  split at done
  · rename_i nothing
    cases done
    rw [pageEntries_eq_nil encoded nothing]
    exact ⟨rfl, fun some => absurd rfl some⟩
  · obtain ⟨_, exist, -⟩ := Outcomes.bind_eq_ok.mp done
    rw [selectMessages_eq_mapM encoded.typed exist] at done
    exact ⟨done, fun _ => exist⟩

theorem messages_paged (request : ScanRequest) (fetch : Fetch) :
    (messageSource request.mailbox request.range request.filter fetch :
      Source Store Uid Message).IsPaged IsEncoded (IsListed request) (IsFound request fetch) where
  looks after limit d := PureReads.fetchPage (pageOf request after limit) fetch d
  page after limit d encoded rows done := by
    have isPage := pageEntries_isPage encoded request after limit
    obtain ⟨read, exist⟩ := fetchPage_eq_ok encoded done
    refine ⟨?_, fun row member => ?_⟩
    · refine (Outcomes.map_of_mapM_eq_ok ?_ read) ▸ isPage
      rintro ⟨place, _⟩ member row done
      obtain ⟨-, -, -, message, rfl, -⟩ := of_mem_pageEntries encoded member
      exact congrArg Place.uid (of_readEntry_eq_ok done).1
    · obtain ⟨⟨place, _⟩, onPage, done⟩ := (Outcomes.mem_of_mapM_eq_ok read).1 row member
      obtain ⟨found, here, inRange, message, rfl, passed⟩ := of_mem_pageEntries encoded onPage
      have finds := find_of_readEntry encoded (exist (List.ne_nil_of_mem member)) found done
      obtain ⟨rfl, flags⟩ := of_readEntry_eq_ok done
      refine ⟨?_, inRange, ?_⟩
      · rw [show request.mailbox = row.mailbox from here.symm]
        exact finds
      · rw [flags, admits_keywords]
        exact passed

theorem uids_paged (request : ScanRequest) :
    (uidSource request.mailbox request.range request.filter :
      Source Store Uid Uid).IsPaged IsEncoded (IsListed request) (IsListed request) where
  looks after limit m := PureReads.fetchUidPage (pageOf request after limit) m
  page after limit d encoded uids done := by
    have isPage := pageEntries_isPage encoded request after limit
    have answer : uids = (d.pageEntries (pageOf request after limit)).map (·.1.uid) := by
      have done : d.fetchUidPage (pageOf request after limit) = .ok uids := done
      unfold fetchUidPage at done
      split at done
      · rename_i nothing
        cases done
        rw [pageEntries_eq_nil encoded nothing]
        rfl
      · obtain ⟨_, -, done⟩ := Outcomes.bind_eq_ok.mp done
        cases done
        rfl
    rw [answer]
    refine ⟨?_, fun uid member => (isPage.matching uid member).1⟩
    exact (List.map_id _).symm ▸ isPage

end Database.Store

/-! ### What a read of messages delivers -/

/-- Whatever is written to a store while its messages are read page by page, the read delivers rows
as they were stored when their page was fetched, with ascending numbers, and skips none that was
always there. -/
theorem scans_readCommitted (path : String) (listBound batch : Nat) (request : ScanRequest)
    (fetch : Fetch) :
    (∀ (history : List (Mutation Memory.Incident)) (moves : List (Move (Mutation Memory.Incident))),
      let store := Mutation.runAll history (Memory.Store.new listBound)
      ReadsCommitted Mutation.run (scan batch request fetch) (IsListed request)
          (IsFound request fetch) moves store ∧
        ReadsCommitted Mutation.run (scanUids batch request) (IsListed request) (IsListed request)
          moves store) ∧
    ∀ (history : List (Mutation Database.Incident))
      (moves : List (Move (Mutation Database.Incident))),
      let store := Mutation.runAll history (Database.Store.new path listBound)
      ReadsCommitted Mutation.run (scan batch request fetch) (IsListed request)
          (IsFound request fetch) moves store ∧
        ReadsCommitted Mutation.run (scanUids batch request) (IsListed request) (IsListed request)
          moves store := by
  constructor
  · intro history moves
    have fits := Memory.Store.mutation_keyed
    have fit := Mutation.runAll_keeps fits history (Memory.Store.new_keyed listBound)
    exact ⟨runAll_committed (Memory.Store.messages_paged request fetch) fits rfl moves fit,
      runAll_committed (Memory.Store.uids_paged request) fits rfl moves fit⟩
  · intro history moves
    have fits := Database.Store.mutation_encoded
    have fit := Mutation.runAll_keeps fits history (Database.Store.new_encoded path listBound)
    exact ⟨runAll_committed (Database.Store.messages_paged request fetch) fits rfl moves fit,
      runAll_committed (Database.Store.uids_paged request) fits rfl moves fit⟩

/-- A message is linked at a number. -/
def linked (uid : Uid) : Mutation Memory.Incident :=
  let draft : MessageDraft := { mailbox := "inbox", uid, messageId := "m" }
  .written (.insert (draft.build .epoch))

/-- A client takes rows one by one. The first row is removed once it was delivered, and another is
added before the client goes on. -/
def takeWhileWritten : List (Move (Mutation Memory.Incident)) :=
  [.next, .written (.written (.deleteBatch "inbox" [1])), .written (linked 3), .next, .next, .next]

example :
    let scan : Scan Memory.Store Uid Uid := scanUids 1 { mailbox := "inbox" }
    let store := Mutation.runAll [linked 1, linked 2] (Memory.Store.new 1)
    (Move.runAll Mutation.run scan.source takeWhileWritten ⟨scan.paging, store, []⟩).delivered
      = [1, 2, 3] := by decide +kernel

end Mailroom
