import Mailroom.Proofs.Removals.Counting
import Mailroom.Proofs.Retries.Database
/-!
Removing a message from every mailbox.

A removal answers with the mailboxes in which the message was linked. It counts up once in each of
them, removes the rows of the message with its content, and leaves every other row and content as
it was. When it is repeated there is nothing more to remove (`UnlinksExactly`). This is so whenever
the modification sequence of each of the mailboxes has a next number, and else nothing is answered
(`unlinksExactly_iff`).
-/

namespace Mailroom

open Service
open Revised (view)

variable {σ ρ : Type}

/-! ### What is removed -/

/-- A removal of a message answers with the mailboxes that were found to hold it, ascending, each of
them once. Afterwards the message is linked nowhere, and no row of it is read. Every other row is as
it was and is read as it was, and so is the content of every other message. The modification
sequences of these mailboxes have advanced by one, and no other counter has moved. When it is
repeated at once, the removal answers with no mailbox and changes nothing. -/
structure UnlinksExactly [Storage σ] [Kept σ] [Sound σ] [Stocked σ] [Revised σ] (id : MessageId)
    (store : σ) (mailboxes : List MailboxId) (after : σ) : Prop where
  found : Storage.findMailboxes id store = (.ok mailboxes, store)
  ascending : mailboxes.Pairwise (· < ·)
  mem_iff : ∀ mailbox, mailbox ∈ mailboxes ↔ ∃ uid, (stock store).LinksAt id ⟨mailbox, uid⟩
  answers : deleteMessage id store = (.ok mailboxes, after)
  unlinked : ¬ (stock after).IsLinked id
  unread : ∀ place fetch row, lookUp fetch after place = .ok (some row) → row.messageId ≠ id
  others : LeavesOthers ((stock store).LinksAt id) store after
  contents : ∀ other, (stock after).contentOf other
    = if other = id then none else (stock store).contentOf other
  counters : CountsUp mailboxes store after
  again : deleteMessage id after = (.ok [], after)

/-- A store in which the rows of a message are found, and removed with nothing else. -/
class Unlinks (σ : Type) [Storage σ] [Kept σ] [Sound σ] [Stocked σ] [Confines σ] : Prop where
  findMailboxes : ∀ (id) {store : σ}, IsWellKept store → ∃ names : NameSet,
    Storage.findMailboxes id store = (.ok names.toList, store) ∧
      ∀ mailbox, mailbox ∈ names ↔ ∃ uid, (stock store).LinksAt id ⟨mailbox, uid⟩
  answers : ∀ (id) {store : σ}, IsWellKept store →
    (Storage.deleteMessage id store).1 = (Storage.findMailboxes id store).1
  unlinked : ∀ (id) {store : σ}, IsWellKept store →
    ¬ (stock (Storage.deleteMessage id store).2).IsLinked id
  confined : ∀ (id) {store : σ}, IsWellKept store →
    Confined ((stock store).LinksAt id) store (Storage.deleteMessage id store).2
  idle : ∀ (id) {store : σ}, IsWellKept store → ¬ (stock store).IsLinked id →
    (Storage.deleteMessage id store).2 = store

/-- When rows of one message are dropped, the contents of the others stay. -/
theorem Stock.Drops.contentOf_other {s after : Stock} (drops : s.Drops after) (tidy : s.IsTidy)
    {id other : MessageId} (different : other ≠ id)
    (stays : ∀ place, ¬ s.LinksAt id place → after.linkAt place = s.linkAt place) :
    after.contentOf other = s.contentOf other := by
  by_cases linked : after.IsLinked other
  · exact drops.contentOf tidy other linked
  · have before : ¬ s.IsLinked other := by
      rintro ⟨place, link, here, rfl⟩
      refine linked ⟨place, link, ?_, rfl⟩
      rw [stays place]
      · exact here
      · rintro ⟨link', here', same⟩
        rw [here] at here'
        cases here'
        exact different same
    have none_left : after.contentOf other = none :=
      Option.not_isSome_iff_eq_none.mp (mt (drops.isTidy tidy other).mp linked)
    exact none_left.trans (Option.not_isSome_iff_eq_none.mp (mt (tidy other).mp before)).symm

theorem NameSet.nodup (names : NameSet) : names.toList.Nodup := by
  refine names.ascending.imp fun before => ?_
  rintro rfl
  exact String.lt_irrefl _ before

section Unlinking

variable [Storage σ] [Kept σ] [Sound σ] [Stocked σ] [Confines σ] {id : MessageId}
  {store middle : σ} {mailboxes : List MailboxId}

/-- Counting up keeps a store well, and leaves what is linked. -/
theorem IsWellKept.of_bumpEach [RollsBack σ] [PureReads σ] (kept : IsWellKept store)
    (done : bumpEach mailboxes store = (.ok (), middle)) :
    IsWellKept middle ∧ stock middle = stock store ∧ SameButCounters store middle := by
  have wellKept := bumpEach_within (keeps_chains IsWellKept)
    (fun mailbox _ kept => kept.run ⟨1, none⟩ (.nextModSeq mailbox)) mailboxes store kept
  have linked := bumpEach_within (relates_chains (fun _ => rfl) Eq.trans) Stocked.nextModSeq
    mailboxes store kept.sound
  have counted := (Call.bumpEach_counts mailboxes store).kept
  rw [done] at wellKept linked counted
  exact ⟨wellKept, linked.2.symm, counted⟩

variable [Unlinks σ]

/-- A removal of a message that is linked nowhere does nothing. -/
theorem deleteMessage_idle (kept : IsWellKept store) (unlinked : ¬ (stock store).IsLinked id) :
    deleteMessage id store = (.ok [], store) := by
  obtain ⟨names, found, mem_iff⟩ := Unlinks.findMailboxes id kept
  have none_found : names.toList = [] := by
    rw [List.eq_nil_iff_forall_not_mem]
    intro mailbox member
    obtain ⟨uid, link, here, same⟩ := (mem_iff mailbox).mp member
    exact unlinked ⟨_, link, here, same⟩
  rw [none_found] at found
  refine (Step.bind_of_ok found).trans ?_
  show Storage.deleteMessage id store = _
  refine Prod.ext ?_ (Unlinks.idle id kept unlinked)
  rw [Unlinks.answers id kept, found]

variable [Revised σ] [Displayed σ] [RollsBack σ] [PureReads σ]

/-- A message is removed exactly once it was counted up in each mailbox that holds it. -/
theorem unlinksExactly_of_counted (kept : IsWellKept store) {names : NameSet}
    (found : Storage.findMailboxes id store = (.ok names.toList, store))
    (mem_iff : ∀ mailbox, mailbox ∈ names ↔ ∃ uid, (stock store).LinksAt id ⟨mailbox, uid⟩)
    (counted : bumpEach names.toList store = (.ok (), middle)) :
    UnlinksExactly id store names.toList (Storage.deleteMessage id middle).2 := by
  obtain ⟨kept', linked, same⟩ := kept.of_bumpEach counted
  obtain ⟨names', found', mem_iff'⟩ := Unlinks.findMailboxes id kept'
  rw [linked] at mem_iff'
  have sameNames : names' = names :=
    NameSet.ext fun mailbox => (mem_iff' mailbox).trans (mem_iff mailbox).symm
  rw [sameNames] at found'
  have answers : (Storage.deleteMessage id middle).1 = .ok names.toList := by
    rw [Unlinks.answers id kept', found']
  have confined := Unlinks.confined id kept'
  obtain ⟨sound, links⟩ := Stocked.deleteMessage id middle kept'.sound
  obtain ⟨-, rows⟩ := Revised.deleteMessage id middle kept'.sound
  have unlinked := Unlinks.unlinked id kept'
  have after : IsWellKept (Storage.deleteMessage id middle).2 :=
    ⟨sound, links.isTidy kept'.tidy, Confines.orderly.deleteMessage id middle kept'.orderly⟩
  rw [linked] at confined links
  refine ⟨found, names.ascending, mem_iff, ?answers, unlinked, ?unread, ?others,
    fun other => ?contents, ?counters, deleteMessage_idle after unlinked⟩
  case answers =>
    refine (Step.bind_of_ok found).trans ((Step.bind_of_ok counted).trans ?_)
    exact Prod.ext answers rfl
  case unread =>
    rintro place fetch row read rfl
    obtain ⟨link, here, same⟩ := Displayed.linksAt read
    exact unlinked ⟨place, link, here, same⟩
  case others =>
    refine (leavesOthers_chains _).trans (.of_counted same) ?_
    exact .of_drops kept'.sound sound kept'.tidy confined.rows (linked ▸ links)
  case contents =>
    split
    · rename_i here
      rw [here]
      exact Option.not_isSome_iff_eq_none.mp (mt (after.tidy id).mp unlinked)
    · rename_i different
      refine links.contentOf_other kept.tidy different fun place apart => ?_
      rw [Displayed.linkAt_same (confined.rows place apart), linked]
  case counters =>
    exact (CountsUp.of_bumpEach kept.sound names.nodup counted).removed confined rows

/-- A message is removed exactly if each of the mailboxes that hold it can be counted up in. -/
theorem unlinksExactly_iff [Counts σ] (kept : IsWellKept store) (id : MessageId) :
    (∃ mailboxes after, UnlinksExactly id store mailboxes after) ↔
      ∀ mailbox uid, (stock store).LinksAt id ⟨mailbox, uid⟩ →
        Counts.hasNext σ ((view store).highestModSeq mailbox) := by
  obtain ⟨names, found, mem_iff⟩ := Unlinks.findMailboxes id kept
  have counts : (∃ middle, bumpEach names.toList store = (.ok (), middle)) ↔
      ∀ mailbox uid, (stock store).LinksAt id ⟨mailbox, uid⟩ →
        Counts.hasNext σ ((view store).highestModSeq mailbox) := by
    rw [bumpEach_ok_iff kept.sound names.nodup]
    refine forall_congr' fun mailbox => ?_
    rw [NameSet.mem_toList, mem_iff, forall_exists_index]
  rw [← counts]
  constructor
  · rintro ⟨mailboxes, after, exactly⟩
    obtain ⟨_, same, first, done⟩ := Step.of_bind_eq_ok exactly.answers
    cases found.symm.trans first
    obtain ⟨_, middle, counted, -⟩ := Step.of_bind_eq_ok done
    exact ⟨middle, counted⟩
  · rintro ⟨middle, counted⟩
    exact ⟨_, _, unlinksExactly_of_counted kept found mem_iff counted⟩

end Unlinking

/-! ### Finding -/

/-- A store whose rows are read from a table finds the mailboxes of the rows of a message. -/
theorem ReadsFrom.findMailboxes_names [Storage σ] [Sound σ] [Stocked σ] {store : σ}
    {t : Table Place ρ} {reader : Reader ρ} (reads : ReadsFrom store t reader) (id : MessageId)
    (links : ∀ place, (stock store).LinksAt id place ↔
      ∃ row, t.get? place = some row ∧ reader.isOf id row = true) :
    ∃ names : NameSet, Storage.findMailboxes id store = (.ok names.toList, store) ∧
      ∀ mailbox, mailbox ∈ names ↔ ∃ uid, (stock store).LinksAt id ⟨mailbox, uid⟩ := by
  refine ⟨_, reads.findMailboxes id, fun mailbox => ?_⟩
  rw [NameSet.mem_ofList, List.mem_map]
  constructor
  · rintro ⟨⟨place, row⟩, member, rfl⟩
    obtain ⟨listed, isOf⟩ := List.mem_filter.mp member
    exact ⟨place.uid, (links place).mpr ⟨row, Table.get?_eq_some_iff.mpr listed, isOf⟩⟩
  · rintro ⟨uid, here⟩
    obtain ⟨row, found, isOf⟩ := (links _).mp here
    exact ⟨(⟨mailbox, uid⟩, row),
      List.mem_filter.mpr ⟨Table.get?_eq_some_iff.mp found, isOf⟩, rfl⟩

/-! ### In memory -/

namespace Memory.Store

variable {m : Store} {id : MessageId} {place : Place}

/-- A message is linked where a row of it lies. -/
theorem linksAt_iff : m.stock.LinksAt id place ↔
    ∃ row, m.rows.get? place = some row ∧ row.messageId = id := by
  constructor
  · rintro ⟨link, here, same⟩
    obtain ⟨row, found, rfl⟩ := Option.map_eq_some_iff.mp here
    exact ⟨row, found, same⟩
  · rintro ⟨row, found, same⟩
    exact ⟨row.link, congrArg (Option.map Message.link) found, same⟩

theorem deleteMessage_eq (on : m.available = true) (id : MessageId) :
    Storage.deleteMessage id m = (.ok (m.mailboxesOf id),
      { m.keepRows (fun _ row => row.messageId ≠ id) with
        contents := (m.keepRows fun _ row => row.messageId ≠ id).contents.erase id }) := by
  refine Step.write_of_ok ?_
  unfold deleteMessage
  rw [ensureAvailable_ok.mpr on]
  rfl

/-- Keeping all rows changes nothing. -/
theorem keepRows_all {keep : Place → Message → Bool}
    (all : ∀ entry ∈ m.rows.entries, keep entry.1 entry.2 = true) : m.keepRows keep = m := by
  have rows : m.rows.filter keep = m.rows := Table.filter_eq_self all
  have dropped : (m.rows.filter fun place row => !keep place row).values = [] := by
    rw [Table.values, Table.entries_filter, List.map_eq_nil_iff, List.filter_eq_nil_iff]
    intro entry member
    simp [all entry member]
  have contents : (m.contents.filter fun id _ =>
      !(([] : List Message).any fun row => row.messageId = id) ||
        m.rows.values.any fun row => row.messageId = id) = m.contents :=
    Table.filter_eq_self fun _ _ => rfl
  unfold keepRows
  rw [dropped, rows]
  dsimp only
  rw [contents]

/-- Where a message is not linked any more, it has been removed. -/
theorem not_isLinked_deleteMessage (on : m.available = true) (id : MessageId) :
    ¬ (Storage.deleteMessage id m).2.stock.IsLinked id := by
  rw [deleteMessage_eq on]
  rintro ⟨place, linked⟩
  obtain ⟨row, found, same⟩ := linksAt_iff.mp linked
  obtain ⟨-, stays⟩ := Option.filter_eq_some_iff.mp (Table.get?_filter.symm.trans found)
  exact of_decide_eq_true stays same

instance : Unlinks Store where
  findMailboxes id m kept := (readsFrom kept.sound.available kept.orderly).findMailboxes_names id
    fun place => linksAt_iff.trans (by simp [reader])
  answers id m kept := by
    rw [deleteMessage_eq kept.sound.available]
    show _ = m.findMailboxes id
    unfold findMailboxes
    rw [ensureAvailable_ok.mpr kept.sound.available]
    rfl
  unlinked id m kept := not_isLinked_deleteMessage kept.sound.available id
  confined id m _ := (deleteMessage_confined id m).mono fun _ => linksAt_iff.mpr
  idle id m kept unlinked := by
    have all : ∀ entry ∈ m.rows.entries, decide (entry.2.messageId ≠ id) = true :=
      fun entry member => decide_eq_true fun same => unlinked
        ⟨entry.1, linksAt_iff.mpr ⟨entry.2, Table.get?_eq_some_iff.mpr member, same⟩⟩
    have erased : m.contents.erase id = m.contents := by
      refine Table.filter_eq_self fun entry member => decide_eq_true ?_
      rintro rfl
      have stored : (m.stock.contentOf entry.1).isSome := by
        show (Option.map _ (m.contents.get? entry.1)).isSome
        rw [Table.get?_eq_some_iff.mpr member]
        rfl
      exact unlinked ((kept.tidy entry.1).mp stored)
    rw [deleteMessage_eq kept.sound.available, keepRows_all all, erased]

end Memory.Store

/-! ### In the database -/

namespace Database.Store

variable {d : Store} {id : MessageId} {place : Place}

/-- A message is linked where a row of it lies. -/
theorem linksAt_iff (encoded : d.IsEncoded) : d.stock.LinksAt id place ↔
    ∃ row, d.database.messages.get? place = some row ∧ row.messageId = .text id := by
  constructor
  · rintro ⟨link, here, same⟩
    obtain ⟨row, found, here⟩ := Option.bind_eq_some_iff.mp here
    obtain ⟨-, message, rfl⟩ := encoded place row found
    rw [MessageRow.link_encode] at here
    cases here
    exact ⟨_, found, congrArg Cell.text same⟩
  · rintro ⟨row, found, same⟩
    obtain ⟨-, message, rfl⟩ := encoded place row found
    refine ⟨message.link, ?_, Cell.text.inj same⟩
    show (d.database.messages.get? place).bind _ = _
    rw [found]
    exact MessageRow.link_encode message place

/-- Removing the rows of a message that has none changes nothing. -/
theorem removeMessages_unlinked (encoded : d.IsEncoded) (unlinked : ¬ d.stock.IsLinked id) :
    removeMessages d.database (fun _ row => row.messageId = .text id) = d.database := by
  have all : removeMessages d.database (fun _ row => row.messageId = .text id)
      = { (kept (fun _ => true) d).database with contents := d.database.contents } :=
    removeMessages_eq fun entry member => decide_eq_false fun same => unlinked
      ⟨entry.1, (linksAt_iff encoded).mpr ⟨entry.2, Table.get?_eq_some_iff.mpr member, same⟩⟩
  rw [all, kept_all fun _ _ => rfl]

/-- Collecting the content of a message that has none changes nothing. -/
theorem collectContents_unlinked (sound : d.IsSound) (tidy : d.stock.IsTidy)
    (unlinked : ¬ d.stock.IsLinked id) :
    d.collectContents d.database (.ofList [id]) = .ok d.database := by
  have roomy : 1 ≤ d.variableLimit := sound.carries (by decide)
  have stays : d.database.contents.filter (fun other _ =>
      !(NameSet.ofList [id]).toList.contains other ||
        d.database.messages.values.any fun row => row.messageId = .text other)
      = d.database.contents := by
    refine Table.filter_eq_self fun entry member => ?_
    rw [Bool.or_eq_true, Bool.not_eq_true', Bool.eq_false_iff, Ne, List.contains_iff_mem,
      NameSet.mem_toList, NameSet.mem_ofList, List.mem_singleton]
    refine .inl ?_
    rintro rfl
    have stored : (d.stock.contentOf entry.1).isSome :=
      Option.isSome_of_eq_some (Table.get?_eq_some_iff.mpr member)
    exact unlinked ((tidy entry.1).mp stored)
  unfold collectContents
  rw [Mirror.requireRelations_of_complete sound.complete,
    bindVariables_of_le (Nat.le_trans (NameSet.size_ofList_le [id]) roomy)]
  simp only [stays]
  split <;> rfl

instance : Unlinks Store where
  findMailboxes id d kept :=
    have sound : d.IsSound := kept.sound
    (readsFrom sound.complete sound.encoded).findMailboxes_names id
      fun place => (linksAt_iff sound.encoded).trans (by simp [reader])
  answers id d kept := by
    obtain ⟨m, sound, mirrors, -⟩ := kept.sound
    have complete := Mirror.requireRelations_of_complete (IsSound.complete kept.sound) [.messages]
    rw [(mirrors.deleteMessage_agrees id).answer, Memory.Store.deleteMessage_eq sound.available]
    show _ = d.findMailboxes id
    unfold findMailboxes
    rw [complete, mirrors.mailboxesOf_eq]
    rfl
  unlinked id d kept := by
    obtain ⟨m, sound, mirrors, -⟩ := kept.sound
    have left := (mirrors.deleteMessage_agrees id).mirrors.stock_eq
    show ¬ (Storage.deleteMessage id d).2.stock.IsLinked id
    rw [left]
    exact Memory.Store.not_isLinked_deleteMessage sound.available id
  confined id d kept := (deleteMessage_confined id d).mono fun _ =>
    (linksAt_iff (IsSound.encoded kept.sound)).mpr
  idle id d kept unlinked := by
    have sound : d.IsSound := kept.sound
    have exist := Mirror.requireRelations_of_complete sound.complete
    have removed := removeMessages_unlinked sound.encoded unlinked
    have collected := collectContents_unlinked sound kept.tidy unlinked
    have done : deleteMessage id d
        = (.ok (mailboxesOf d.database id), { d with database := d.database }) := by
      unfold deleteMessage
      refine transaction_of_ok sound.unlocked (?_ : (_ : Except _ _) = .ok (_, d.database))
      simp only [exist, removed, collected, Outcomes.ok_bind]
      rfl
    exact congrArg Prod.snd done

end Database.Store

end Mailroom
