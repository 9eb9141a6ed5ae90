import Mailroom.Proofs.Database.Reads
import Mailroom.Proofs.Listings.Lookups
import Mailroom.Proofs.Simulation
import Mailroom.Proofs.Statements.Bounds
/-!
Mailboxes do not disturb each other.

A call on one mailbox leaves the rows and the counters of every other one (`Call.run_leaves`). The
contents belong to no mailbox: what a read in full answers of one stays the same because a call
stores the content of a message only where there was none, and drops only contents of messages that
are linked no more (`Call.run_contents`). A read of a mailbox looks at no more than its rows, its
counters and these contents, so nothing that is read of the other mailboxes changes
(`mailboxes_isolated`).
-/

namespace Mailroom

open Service

variable {σ ρ : Type}

/-! ### The frame of a call -/

/-- The mailbox that a call counts in or whose rows it writes. -/
def Service.Call.written? : Call → Option MailboxId
  | nextUid mailbox | nextModSeq mailbox | append mailbox .. | applyFlags mailbox ..
  | resetRecent mailbox .. | deleteByUids mailbox _ | deleteMailbox mailbox => some mailbox
  | _ => none

/-- The rows of a mailbox are as they were, and so are its counters. -/
structure LeavesMailbox [Kept σ] (mailbox : MailboxId) (store after : σ) : Prop where
  counters : Kept.countersOf after mailbox = Kept.countersOf store mailbox
  rows : ∀ place, place.mailbox = mailbox → SameRow place store after

section Frame

variable [Kept σ] {mailbox other : MailboxId} {store after : σ}

theorem leavesMailbox_chains (mailbox : MailboxId) :
    Chains (LeavesMailbox (σ := σ) mailbox) where
  refl _ := ⟨rfl, fun _ _ => rfl⟩
  trans first second := {
    counters := second.counters.trans first.counters
    rows := fun place here =>
      (sameRow_chains place).trans (first.rows place here) (second.rows place here) }

variable (different : other ≠ mailbox)

include different

theorem LeavesMailbox.of_counted (counted : OnlyCounted (· = mailbox) store after) :
    LeavesMailbox other store after where
  counters := counted.elsewhere other different
  rows place _ := counted.sameRow place

theorem LeavesMailbox.of_confined {touched : Place → Prop}
    (confined : Confined touched store after)
    (within : ∀ place, touched place → place.mailbox = mailbox) :
    LeavesMailbox other store after where
  counters := congrFun confined.counters other
  rows place here := confined.rows place fun isTouched => different (here ▸ within place isTouched)

variable [Storage σ] [RollsBack σ] [Confines σ]
  (removal : ∀ mailbox, (Storage.deleteMailbox mailbox : Step σ (List MessageId)).Within
    (Confined fun place => place.mailbox = mailbox))

include removal

/-- A call that writes to a mailbox leaves every other one. -/
theorem Service.Call.run_leaves (policy : Policy) {call : Call}
    (writes : call.written? = some mailbox) :
    (call.run policy : Step σ call.Answer).Within (LeavesMailbox other) := by
  have chains : Chains (LeavesMailbox (σ := σ) other) := leavesMailbox_chains other
  have nextUid : (Storage.nextUid mailbox : Step σ Uid).Within (LeavesMailbox other) :=
    fun store => .of_counted different (RollsBack.nextUid mailbox store)
  have nextModSeq : (Storage.nextModSeq mailbox : Step σ ModSeq).Within (LeavesMailbox other) :=
    fun store => .of_counted different (RollsBack.nextModSeq mailbox store)
  cases call with
  | nextUid mailbox =>
    cases writes
    exact nextUid
  | nextModSeq mailbox =>
    cases writes
    exact nextModSeq
  | append mailbox new now =>
    cases writes
    refine .bind chains nextUid fun uid => .bind chains nextModSeq fun modSeq => ?_
    refine .bind chains (fun store => ?_) fun _ => .pure chains _
    refine .of_confined different (Confines.insert (new.row mailbox uid modSeq now) store) ?_
    rintro _ rfl
    rfl
  | applyFlags mailbox uid update expected =>
    cases writes
    refine .bind chains nextModSeq fun modSeq store => ?_
    refine .of_confined different
      (Confines.updateFlags mailbox uid (.ofUpdate update) modSeq expected store) ?_
    rintro _ rfl
    rfl
  | resetRecent mailbox uids modSeq =>
    cases writes
    refine resetRecent_within chains (fun part _ ascending store => ?_) uids
    exact .of_confined different (Confines.resetRecent mailbox part modSeq ascending store)
      fun _ named => named.1
  | deleteByUids mailbox uids =>
    cases writes
    show (Service.deleteByUids mailbox uids : Step σ (List Metadata)).Within _
    unfold Service.deleteByUids
    split
    · exact .pure chains _
    refine .bind chains nextModSeq fun _ store => ?_
    refine runPartitioned_within chains (fun part _ store => ?_) store
    exact .of_confined different (Confines.deleteBatch mailbox part store) fun _ named => named.1
  | deleteMailbox mailbox =>
    cases writes
    exact fun store => .of_confined different (removal mailbox store) fun _ => id
  | _ => cases writes

end Frame

/-- A call keeps the contents of the messages that were linked and still are. -/
theorem Service.Call.run_contents [Storage σ] [Sound σ] [Stocked σ] [PureReads σ] (policy : Policy)
    (call : Call) {store : σ} (sound : isSound store) (tidy : (stock store).IsTidy)
    {id : MessageId} (linked : (stock store).IsLinked id)
    (still : (stock (call.run policy store).2).IsLinked id) :
    (stock (call.run policy store).2).contentOf id = (stock store).contentOf id := by
  obtain ⟨-, drops | ⟨mailbox, new, now, metadata, links⟩⟩ := call.run_stock policy sound
  · exact drops.contentOf tidy id still
  · obtain ⟨content, stored⟩ := Option.isSome_iff_exists.mp ((tidy id).mpr linked)
    rw [links.put, Stock.contentOf_put, stored, Option.getD_some, ite_self]

/-- No call changes how many numbers are taken at once, if no operation does. -/
theorem Service.Call.run_keepBound [Storage σ] [PureReads σ]
    (operations : Operations σ fun store after =>
      Storage.listBound after = Storage.listBound store) (policy : Policy) (call : Call)
    (store : σ) : Storage.listBound (call.run policy store).2 = Storage.listBound store := by
  have chains : Chains fun store after : σ =>
      Storage.listBound after = Storage.listBound store :=
    ⟨fun _ => rfl, fun first second => second.trans first⟩
  have writes : Writes σ (fun _ => True) fun store after =>
      Storage.listBound after = Storage.listBound store := writes_of_operations chains operations
  exact call.run_within chains writes policy trivial store

/-! ### What is read of a mailbox -/

/-- The mailbox that a call reads, if it reads just one. -/
def Service.Call.read? : Call → Option MailboxId
  | highestModSeq mailbox | find mailbox .. | findByUids mailbox .. | counts mailbox
  | firstUnseen mailbox | keywords mailbox => some mailbox
  | scan request _ | scanUids request => some request.mailbox
  | _ => none

/-- Whatever is read of a mailbox, two stores answer the same. -/
structure ReadsSame [Storage σ] (mailbox : MailboxId) (store after : σ) : Prop where
  call : ∀ (policy : Policy) {read : Call}, read.read? = some mailbox →
    (read.run policy after).1 = (read.run policy store).1
  lastUid : (Storage.lastUid mailbox after).1 = (Storage.lastUid mailbox store).1

/-- Two tables have the same rows of a mailbox, and they are read alike. -/
structure SameSlice (mailbox : MailboxId) (t t' : Table Place ρ) (reader reader' : Reader ρ) :
    Prop where
  rows : t'.inMailbox mailbox = t.inMailbox mailbox
  passes : reader'.passes = reader.passes
  takes : reader'.takes = reader.takes
  decode : ∀ fetch, ∀ entry ∈ (t.inMailbox mailbox).entries,
    reader'.decode fetch entry = reader.decode fetch entry

namespace SameSlice

variable {mailbox : MailboxId} {t t' : Table Place ρ} {reader reader' : Reader ρ}
  (slice : SameSlice mailbox t t' reader reader')

include slice

/-- Rows of the mailbox are read alike. -/
theorem mapM_eq (fetch : Fetch) {entries : List (Place × ρ)}
    (among : entries ⊆ (t.inMailbox mailbox).entries) :
    entries.mapM (reader'.decode fetch) = entries.mapM (reader.decode fetch) :=
  Outcomes.mapM_congr fun entry member => slice.decode fetch entry (among member)

theorem get?_eq {uid : Uid} : t'.get? ⟨mailbox, uid⟩ = t.get? ⟨mailbox, uid⟩ := by
  have inMailbox (t : Table Place ρ) :
      (t.inMailbox mailbox).get? ⟨mailbox, uid⟩ = t.get? ⟨mailbox, uid⟩ := by
    rw [Table.inMailbox, Table.get?_filter]
    cases t.get? ⟨mailbox, uid⟩ with
    | none => rfl
    | some row => exact Option.filter_some_pos (decide_eq_true rfl)
  rw [← inMailbox t', ← inMailbox t, slice.rows]

theorem onPage_eq {page : PageRequest} (here : page.mailbox = mailbox) :
    t'.onPage reader' page = t.onPage reader page := by
  subst here
  rw [Table.onPage, Table.onPage, slice.rows, slice.passes]

theorem withUids_eq {uids : List Uid} :
    t'.withUids mailbox uids = t.withUids mailbox uids := by
  rw [Table.withUids, Table.withUids, slice.rows]

end SameSlice

/-- A pair of stores, each of which is left as it is. -/
def Facing (store after : σ) (left right : σ) : Prop := left = store ∧ right = after

theorem alike_of_looks {α : Type} {step : Step σ α} {store after : σ}
    {answer : Except StoreError α} (looks : step store = (answer, store))
    (looks' : step after = (answer, after)) : Step.Alike (Facing store after) step step := by
  rintro _ _ ⟨rfl, rfl⟩
  rw [looks, looks']
  exact ⟨rfl, rfl, rfl⟩

/-- A read that is over in the end in both of two stores delivers the same in both, if each of its
pages is the same. -/
theorem drained_same [Storage σ] {κ τ : Type} {source : Source σ κ τ} {paging : Paging κ τ}
    {store after : σ} (sources : Source.Alike (Facing store after) source source)
    (ended : (paging.rest source (Storage.extent store) store).2.1.finished = true)
    (ended' : (paging.rest source (Storage.extent after) after).2.1.finished = true) :
    (Call.drained ⟨source, paging⟩ after).1 = (Call.drained ⟨source, paging⟩ store).1 := by
  obtain ⟨answer, next, _, _, did, did', -⟩ := rest_alike sources
    (max (Storage.extent store) (Storage.extent after)) paging ⟨rfl, rfl⟩
  rw [Paging.rest_settled ended (Nat.le_max_left _ _)] at did
  rw [Paging.rest_settled ended' (Nat.le_max_right _ _)] at did'
  simp only [Call.drained, drain, Scan.rest, did, did']

namespace ReadsFrom

variable [Storage σ] {mailbox : MailboxId} {store after : σ} {t t' : Table Place ρ}
  {reader reader' : Reader ρ} (reads : ReadsFrom store t reader)
  (reads' : ReadsFrom after t' reader') (slice : SameSlice mailbox t t' reader reader')

include reads reads' slice

theorem find_same (uid : Uid) (fetch : Fetch) :
    (Storage.find mailbox uid fetch after).1 = (Storage.find mailbox uid fetch store).1 := by
  rw [reads.find, reads'.find, slice.get?_eq]
  cases found : t.get? ⟨mailbox, uid⟩ with
  | none => rfl
  | some row =>
    have inMailbox : (⟨mailbox, uid⟩, row) ∈ (t.inMailbox mailbox).entries :=
      Table.mem_inMailbox.mpr ⟨Table.get?_eq_some_iff.mp found, rfl⟩
    exact congrArg (some <$> ·) (slice.decode fetch _ inMailbox)

/-- The rows with the numbers of a batch are the same. -/
theorem fetchBatch_alike (uids : List Uid) (fetch : Fetch) :
    Step.Alike (Facing store after) (Storage.fetchBatch mailbox uids fetch)
      (Storage.fetchBatch mailbox uids fetch) := by
  refine alike_of_looks (reads.fetchBatch mailbox uids fetch) ?_
  rw [reads'.fetchBatch, slice.takes, slice.withUids_eq]
  refine Prod.ext (congrArg (_ >>= ·) (funext fun _ => ?_)) rfl
  exact slice.mapM_eq fetch List.filter_sublist.subset

theorem fetchPage_alike {page : PageRequest} (here : page.mailbox = mailbox) (fetch : Fetch) :
    Step.Alike (Facing store after) (Storage.fetchPage page fetch)
      (Storage.fetchPage page fetch) := by
  refine alike_of_looks (reads.fetchPage page fetch) ?_
  rw [reads'.fetchPage, slice.onPage_eq here]
  refine Prod.ext (slice.mapM_eq fetch fun entry member => ?_) rfl
  exact here ▸ List.filter_sublist.subset (List.mem_of_mem_take member)

theorem fetchUidPage_alike {page : PageRequest} (here : page.mailbox = mailbox) :
    Step.Alike (Facing store after) (Storage.fetchUidPage page : Step σ (List Uid))
      (Storage.fetchUidPage page) := by
  refine alike_of_looks (reads.fetchUidPage page) ?_
  rw [reads'.fetchUidPage, slice.onPage_eq here]

theorem counts_same :
    (Storage.counts mailbox after).1 = (Storage.counts mailbox store).1 := by
  rw [reads.counts, reads'.counts, slice.rows, slice.passes]

theorem firstUnseen_same :
    (Storage.firstUnseen mailbox after).1 = (Storage.firstUnseen mailbox store).1 := by
  rw [reads.firstUnseen, reads'.firstUnseen, slice.rows, slice.passes]

/-- What is read of a mailbox is the same in two stores if its rows are, and what stands beside
them. -/
theorem readsSame (bound : Storage.listBound after = Storage.listBound store)
    (lastUid : (Storage.lastUid mailbox after).1 = (Storage.lastUid mailbox store).1)
    (highestModSeq : (Storage.highestModSeq mailbox after).1
      = (Storage.highestModSeq mailbox store).1)
    (keywords : (Storage.keywords mailbox after).1 = (Storage.keywords mailbox store).1) :
    ReadsSame mailbox store after where
  lastUid := lastUid
  call policy read isRead := by
    cases read with
    | highestModSeq _ =>
      cases isRead
      exact highestModSeq
    | find _ uid fetch =>
      cases isRead
      exact reads.find_same reads' slice uid fetch
    | findByUids _ uids fetch =>
      cases isRead
      show (runPartitioned (Storage.listBound after) _ (sortedUids uids) after).1
        = (runPartitioned (Storage.listBound store) _ (sortedUids uids) store).1
      rw [bound]
      exact (runPartitioned_alike (fun part _ => reads.fetchBatch_alike reads' slice part fetch) _
        store after ⟨rfl, rfl⟩).1.symm
    | counts _ =>
      cases isRead
      exact reads.counts_same reads' slice
    | firstUnseen _ =>
      cases isRead
      exact reads.firstUnseen_same reads' slice
    | keywords _ =>
      cases isRead
      exact keywords
    | scan request fetch =>
      cases isRead
      exact drained_same ⟨rfl, fun _ _ => reads.fetchPage_alike reads' slice rfl fetch⟩
        (reads.scan_ends policy.batch request fetch).2.1
        (reads'.scan_ends policy.batch request fetch).2.1
    | scanUids request =>
      cases isRead
      exact drained_same ⟨rfl, fun _ _ => reads.fetchUidPage_alike reads' slice rfl⟩
        (reads.scanUids_ends policy.batch request).2.1
        (reads'.scanUids_ends policy.batch request).2.1
    | _ => cases isRead

end ReadsFrom

/-! ### In memory -/

/-- Tables with the same rows at the places of a mailbox have the same rows of it. -/
theorem Table.inMailbox_congr {mailbox : MailboxId} {t t' : Table Place ρ}
    (same : ∀ place, place.mailbox = mailbox → t'.get? place = t.get? place) :
    t'.inMailbox mailbox = t.inMailbox mailbox := by
  refine Table.ext_get? fun place => ?_
  rw [inMailbox, inMailbox, Table.get?_filter, Table.get?_filter]
  by_cases here : place.mailbox = mailbox
  · rw [same place here]
  · simp [here]

namespace Memory.Store

variable {mailbox : MailboxId} {m after : Store}

/-- No write changes how many numbers a call takes at once. -/
theorem operations_keepBound :
    Operations Store fun m after => after.listBound = m.listBound := by
  have chains : Chains fun m after : Store => after.listBound = m.listBound :=
    ⟨fun _ => rfl, fun first second => second.trans first⟩
  constructor
  · exact fun mailbox => .write chains fun done => by rw [(allocate_ok done).2]
  · exact fun mailbox => .write chains fun done => by rw [(allocate_ok done).2]
  · exact fun message => .write chains fun done => by rw [(insert_ok done).2.2]
  · intro mailbox uid edit modSeq expected
    refine .write chains fun done => ?_
    obtain ⟨-, _, -, -, -, rfl⟩ := updateFlags_ok done
    rfl
  · intro mailbox uids modSeq _ ascending
    refine .write chains fun done => ?_
    rw [(resetRecent_ok (ascending.imp Nat.ne_of_lt) done).2]
    rfl
  · exact fun mailbox uids _ => .write chains fun done => by
      rw [deleteBatch_ok done]
      rfl
  · exact fun mailbox => .write chains fun done => by
      rw [deleteMailbox_ok done]
      rfl
  · exact fun id => .write chains fun done => by
      rw [deleteMessage_ok done]
      rfl
  · exact fun draft expiresAt => .write chains fun done => by rw [(appendChange_ok done).2]
  · exact fun now => .write chains fun done => by
      rw [purgeExpired_ok done]

/-- Rows of a mailbox that are the same are read alike, if their contents are the same. -/
theorem sameSlice (leaves : LeavesMailbox mailbox m after)
    (contents : ∀ id, m.stock.IsLinked id → after.stock.IsLinked id →
      after.stock.contentOf id = m.stock.contentOf id) :
    SameSlice mailbox m.rows after.rows m.reader after.reader where
  rows := Table.inMailbox_congr leaves.rows
  passes := rfl
  takes := rfl
  decode fetch entry member := by
    obtain ⟨listed, here⟩ := Table.mem_inMailbox.mp member
    have found := Table.get?_eq_some_iff.mpr listed
    have linked : m.stock.IsLinked entry.2.messageId :=
      isLinked_iff.mpr ⟨entry.1, entry.2, found, rfl⟩
    have still : after.stock.IsLinked entry.2.messageId :=
      isLinked_iff.mpr ⟨entry.1, entry.2, (leaves.rows entry.1 here).trans found, rfl⟩
    have packed : (after.contents.get? entry.2.messageId).map Database.StoredContent.packed
        = (m.contents.get? entry.2.messageId).map .packed := contents _ linked still
    have same := Option.map_injective (fun _ _ => Database.StoredContent.packed.inj) packed
    cases fetch with
    | metadata => rfl
    | full => exact congrArg (fun content => Except.ok { entry.2 with content }) same

/-- What is read of a mailbox in memory is the same if its rows, its counters and their contents
are. -/
theorem readsSame (legible : m.IsLegible) (legible' : after.IsLegible)
    (leaves : LeavesMailbox mailbox m after)
    (contents : ∀ id, m.stock.IsLinked id → after.stock.IsLinked id →
      after.stock.contentOf id = m.stock.contentOf id)
    (bound : after.listBound = m.listBound) : ReadsSame mailbox m after := by
  have slice := sameSlice leaves contents
  have counters : after.countersOf mailbox = m.countersOf mailbox := leaves.counters
  have on := ensureAvailable_ok.mpr legible.available
  have on' := ensureAvailable_ok.mpr legible'.available
  refine (readsFrom legible.available legible.keyed).readsSame
    (readsFrom legible'.available legible'.keyed) slice bound ?_ ?_ ?_
  · show after.lastUid mailbox = m.lastUid mailbox
    unfold lastUid
    rw [on, on', counters]
  · show after.highestModSeq mailbox = m.highestModSeq mailbox
    unfold highestModSeq
    rw [on, on', counters]
  · show after.keywords mailbox = m.keywords mailbox
    have rows : after.mailboxRows mailbox = m.mailboxRows mailbox :=
      congrArg Table.values slice.rows
    unfold keywords
    rw [on, on', rows]

end Memory.Store

/-! ### In the database -/

namespace Database.Store

variable {mailbox : MailboxId} {d after : Store}

theorem IsSound.bindVariables_eq (sound : d.IsSound) (sound' : after.IsSound) :
    after.bindVariables = d.bindVariables := by
  obtain ⟨m, -, mirrors, -⟩ := sound
  obtain ⟨m', -, mirrors', -⟩ := sound'
  funext count
  unfold bindVariables
  rw [mirrors.variableLimit, mirrors'.variableLimit]

/-- Rows of a mailbox that are the same are read alike, with their keywords, if their contents are
the same. -/
theorem sameSlice (sound : d.IsSound) (sound' : after.IsSound)
    (leaves : LeavesMailbox mailbox d after)
    (contents : ∀ id, d.stock.IsLinked id → after.stock.IsLinked id →
      after.stock.contentOf id = d.stock.contentOf id) :
    SameSlice mailbox d.database.messages after.database.messages d.reader after.reader where
  rows := Table.inMailbox_congr fun place here => congrArg Prod.fst (leaves.rows place here)
  passes := rfl
  takes := by
    funext uids
    show (if _ then _ else after.bindVariables _) = if _ then _ else d.bindVariables _
    rw [sound.bindVariables_eq sound']
  decode fetch entry member := by
    obtain ⟨place, row⟩ := entry
    obtain ⟨listed, here⟩ := Table.mem_inMailbox.mp member
    have found := Table.get?_eq_some_iff.mpr listed
    have found' := (congrArg Prod.fst (leaves.rows place here)).trans found
    obtain ⟨-, message, rfl⟩ := sound.encoded place row found
    have keywords := keywordsAt_congr (leaves.rows place here)
    have content : after.database.contents.get? message.messageId
        = d.database.contents.get? message.messageId :=
      contents _ (isLinked_of_encode found) (isLinked_of_encode found')
    show readEntry after.database fetch _ = readEntry d.database fetch _
    rw [readEntry_encode, readEntry_encode, keywords, content]

/-- What is read of a mailbox in the database is the same if its rows, its counters and their
contents are. -/
theorem readsSame (sound : d.IsSound) (sound' : after.IsSound)
    (leaves : LeavesMailbox mailbox d after)
    (contents : ∀ id, d.stock.IsLinked id → after.stock.IsLinked id →
      after.stock.contentOf id = d.stock.contentOf id)
    (bound : after.listBound = d.listBound) : ReadsSame mailbox d after := by
  have counters : after.countersOf mailbox = d.countersOf mailbox := leaves.counters
  have exist := Mirror.requireRelations_of_complete sound.complete
  have exist' := Mirror.requireRelations_of_complete sound'.complete
  have counted : after.readCounters mailbox = d.readCounters mailbox := by
    unfold readCounters
    rw [exist, exist', counters]
  refine (readsFrom sound.complete sound.encoded).readsSame
    (readsFrom sound'.complete sound'.encoded) (sameSlice sound sound' leaves contents) bound
    ?_ ?_ ?_
  · show after.lastUid mailbox = d.lastUid mailbox
    unfold lastUid
    rw [counted]
  · show after.highestModSeq mailbox = d.highestModSeq mailbox
    unfold highestModSeq
    rw [counted]
  · show after.keywords mailbox = d.keywords mailbox
    unfold keywords
    rw [exist, exist']
    refine congrArg Except.ok (NameSet.ext fun keyword => ?_)
    rw [mem_keywordsOf, mem_keywordsOf]
    refine exists_congr fun place => and_congr_right fun here => ?_
    rw [keywordsAt_congr (leaves.rows place here)]

end Database.Store

/-! ### The two stores -/

namespace Service

/-- In memory and in the database, after any calls, a call that writes to one mailbox changes
nothing that is read of another one, whether or not it succeeds, and even if they hold the same
messages. -/
theorem mailboxes_isolated (policy : Policy) (path : String) (listBound : Nat) (calls : List Call)
    {call : Call} {mailbox other : MailboxId} (writes : call.written? = some mailbox)
    (different : other ≠ mailbox) :
    let m := (Call.runAll policy calls (Memory.Store.new listBound)).2
    let d := (Call.runAll policy calls (Database.Store.new path listBound)).2
    ReadsSame other m (call.run policy m).2 ∧ ReadsSame other d (call.run policy d).2 := by
  constructor
  · have recalls : Recalls policy (Memory.Store.new listBound) calls :=
      (Recalls.of_nothing (holdsNothing_inMemory listBound)).append calls
    have legible' := Memory.Store.runAll_isLegible policy (calls ++ [call]) listBound
    rw [runAll_concat] at legible'
    exact Memory.Store.readsSame (Memory.Store.runAll_isLegible policy calls listBound) legible'
      (call.run_leaves different Memory.Store.deleteMailbox_confined policy writes _)
      (fun _ => call.run_contents policy recalls.isSound recalls.isTidy)
      (Call.run_keepBound Memory.Store.operations_keepBound policy call _)
  · have recalls : Recalls policy (Database.Store.new path listBound) calls :=
      (Recalls.of_nothing (holdsNothing_inDatabase path listBound)).append calls
    have sound' := Database.Store.runAll_isSound policy (calls ++ [call]) path listBound
    rw [runAll_concat] at sound'
    exact Database.Store.readsSame recalls.isSound sound'
      (call.run_leaves different Database.Store.deleteMailbox_confined policy writes _)
      (fun _ => call.run_contents policy recalls.isSound recalls.isTidy)
      (Call.run_keepBound Database.Recorded.operations_keepBound policy call _)

/-- A run that links one message in two mailboxes. -/
def twiceLinkedRun : List Call :=
  [.append "inbox" { id := "m1", content := [1] } .epoch,
    .append "archive" { id := "m1", content := [2] } .epoch]

/-- The content that the message of the archive is read with. -/
def archivedContent [Storage σ] (store : σ) : Option Octets :=
  (Storage.find "archive" 1 .full store).1.toOption.bind fun found => found.bind (·.content)

/-- The archive keeps the content that the append to the inbox stored, when the inbox is removed. -/
theorem mailboxes_isolated_twiceLinkedRun :
    let removal := Call.deleteMailbox "inbox"
    let m := (Call.runAll ⟨1, none⟩ twiceLinkedRun (Memory.Store.new 2)).2
    let d := (Call.runAll ⟨1, none⟩ twiceLinkedRun (Database.Store.new "mail" 2)).2
    ((removal.written? = some "inbox" ∧ "archive" ≠ "inbox") ∧
      ReadsSame "archive" m (removal.run ⟨1, none⟩ m).2 ∧
      ReadsSame "archive" d (removal.run ⟨1, none⟩ d).2) ∧
    (archivedContent m = some [1] ∧ archivedContent (removal.run ⟨1, none⟩ m).2 = some [1]) ∧
      archivedContent d = some [1] ∧ archivedContent (removal.run ⟨1, none⟩ d).2 = some [1] := by
  intro removal m d
  have different : "archive" ≠ "inbox" := by decide
  refine ⟨⟨⟨rfl, different⟩, mailboxes_isolated ⟨1, none⟩ "mail" 2 twiceLinkedRun rfl different⟩,
    ?_, ?_⟩
  · decide +kernel
  · decide +kernel

end Service

end Mailroom
