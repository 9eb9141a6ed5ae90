import Mailroom.Proofs.Removals.Messages
import Mailroom.Proofs.Statements.Limits
/-!
Removing a mailbox.

A removal answers with the identifiers of the messages of a mailbox, each as often as it is linked
there. It leaves no row in the mailbox, and every other row and every counter as it was
(`EmptiesExactly`). The database does so as long as a statement carries the identifiers. Together
with the removal of messages this is told of every store that calls led to (`removals_exact`).
-/

namespace Mailroom

open Service
open Revised (view)

variable {σ : Type}

/-! ### What is removed -/

/-- The identifiers of the messages that are linked in a mailbox, ascending, each as often as it is
linked there. -/
structure Stock.Enumerates (s : Stock) (mailbox : MailboxId) (ids : List MessageId) : Prop where
  ascending : ids.Pairwise (· ≤ ·)
  each : ∃ places : List Place, places.Nodup ∧
    (∀ place, place ∈ places ↔ place.mailbox = mailbox ∧ (s.linkAt place).isSome) ∧
    ids.Perm (places.filterMap fun place => (s.linkAt place).map Link.id)

/-- A removal of a mailbox answers with the identifiers of its messages. Afterwards nothing is found
in the mailbox, every other row is as it was and is read as it was, and no counter has moved. -/
structure EmptiesExactly [Storage σ] [Kept σ] [Sound σ] [Stocked σ] (mailbox : MailboxId)
    (store : σ) (ids : List MessageId) (after : σ) : Prop where
  answers : Storage.deleteMailbox mailbox store = (.ok ids, after)
  lists : (stock store).Enumerates mailbox ids
  emptied : ∀ uid fetch, lookUp fetch after ⟨mailbox, uid⟩ = .ok none
  others : LeavesOthers (fun place => place.mailbox = mailbox) store after
  counters : Kept.countersOf after = Kept.countersOf store

/-- A removal is exact that is confined to the rows of the mailbox and leaves none of them. -/
theorem EmptiesExactly.of_confined [Storage σ] [Kept σ] [Sound σ] [Stocked σ] [Displayed σ]
    [Confines σ] {mailbox : MailboxId} {store after : σ} {ids : List MessageId}
    (kept : IsWellKept store) (done : Storage.deleteMailbox mailbox store = (.ok ids, after))
    (lists : (stock store).Enumerates mailbox ids)
    (confined : Confined (fun place => place.mailbox = mailbox) store after)
    (emptied : ∀ uid, (stock after).linkAt ⟨mailbox, uid⟩ = none) :
    EmptiesExactly mailbox store ids after := by
  obtain ⟨sound, links⟩ := Stocked.deleteMailbox mailbox store kept.sound
  rw [done] at sound links
  exact {
    answers := done
    lists
    emptied := fun uid => Displayed.lookUp_none sound (emptied uid)
    others := .of_drops kept.sound sound kept.tidy confined.rows links
    counters := confined.counters }

/-! ### In memory -/

namespace Memory.Store

variable {m : Store}

theorem deleteMailbox_eq (on : m.available = true) (mailbox : MailboxId) :
    Storage.deleteMailbox mailbox m = (.ok (sortNames ((m.mailboxRows mailbox).map
      Message.messageId)), m.keepRows fun place _ => place.mailbox ≠ mailbox) := by
  refine Step.write_of_ok ?_
  unfold deleteMailbox
  rw [ensureAvailable_ok.mpr on]
  rfl

/-- The identifiers of the rows of a mailbox, sorted, are those of the messages that are linked. -/
theorem enumerates (m : Store) (mailbox : MailboxId) : m.stock.Enumerates mailbox
    (sortNames ((m.mailboxRows mailbox).map Message.messageId)) where
  ascending := by
    have sorted (names : List String) :
        (sortNames names).Pairwise fun a b => decide (a ≤ b) = true :=
      List.pairwise_mergeSort (fun a b c => by simpa using String.le_trans)
        (fun a b => by simpa using String.le_total a b) names
    exact (sorted _).imp of_decide_eq_true
  each := by
    refine ⟨(m.rows.inMailbox mailbox).entries.map (·.1), ?nodup, fun place => ?mem, ?perm⟩
    case nodup =>
      refine List.pairwise_map.mpr ((m.rows.inMailbox mailbox).ascending.imp fun before same => ?_)
      rw [same, Std.compare_self] at before
      cases before
    case mem =>
      rw [List.mem_map]
      constructor
      · rintro ⟨entry, member, rfl⟩
        obtain ⟨listed, here⟩ := Table.mem_inMailbox.mp member
        refine ⟨here, ?_⟩
        show (Option.map _ (m.rows.get? entry.1)).isSome
        rw [Table.get?_eq_some_iff.mpr listed]
        rfl
      · rintro ⟨here, linked⟩
        obtain ⟨link, linked⟩ := Option.isSome_iff_exists.mp linked
        obtain ⟨row, found, -⟩ := Option.map_eq_some_iff.mp linked
        exact ⟨(place, row), Table.mem_inMailbox.mpr ⟨Table.get?_eq_some_iff.mp found, here⟩, rfl⟩
    case perm =>
      refine (List.mergeSort_perm _ _).trans (List.Perm.of_eq ?_)
      rw [List.filterMap_map]
      show ((m.rows.inMailbox mailbox).entries.map (·.2)).map _ = _
      rw [List.map_map, ← List.filterMap_eq_map]
      refine List.filterMap_congr fun entry member => ?_
      show _ = Option.map Link.id (Option.map Message.link (m.rows.get? entry.1))
      rw [Table.get?_eq_some_iff.mpr (Table.mem_inMailbox.mp member).1]
      rfl

/-- In a mailbox that was removed nothing is linked. -/
theorem linkAt_deleteMailbox (on : m.available = true) (mailbox : MailboxId) (uid : Uid) :
    (Storage.deleteMailbox mailbox m).2.stock.linkAt ⟨mailbox, uid⟩ = none := by
  rw [deleteMailbox_eq on]
  show Option.map _ ((m.rows.filter _).get? ⟨mailbox, uid⟩) = none
  rw [Table.get?_filter]
  cases m.rows.get? ⟨mailbox, uid⟩ <;> simp

theorem emptiesExactly (kept : IsWellKept m) (mailbox : MailboxId) :
    ∃ ids after, EmptiesExactly mailbox m ids after := by
  have on := kept.sound.available
  have done := deleteMailbox_eq on mailbox
  refine ⟨_, _, .of_confined kept done (m.enumerates mailbox) ?_ fun uid => ?_⟩
  · have confined := deleteMailbox_confined mailbox m
    rwa [done] at confined
  · have gone := linkAt_deleteMailbox on mailbox uid
    rwa [done] at gone

end Memory.Store

/-! ### In the database -/

namespace Database.Store

variable {d : Store}

/-- The database removes a mailbox exactly if a statement carries the identifiers of its messages.
-/
theorem emptiesExactly_iff (kept : IsWellKept d) (mailbox : MailboxId) :
    (∃ ids after, EmptiesExactly mailbox d ids after) ↔
      (d.askedIds mailbox).size ≤ d.variableLimit := by
  have sound : d.IsSound := kept.sound
  constructor
  · rintro ⟨ids, after, exactly⟩
    by_contra many
    have refused : Storage.deleteMailbox mailbox d = _ :=
      deleteMailbox_refused sound.complete (Nat.not_le.mp many)
    cases exactly.answers.symm.trans refused
  intro few
  obtain ⟨m, inMemory, mirrors, -⟩ := sound
  have asked : d.askedIds mailbox
      = NameSet.ofList ((m.mailboxRows mailbox).map Message.messageId) := by
    unfold askedIds Sending.mailboxIds
    rw [mirrors.requireRelations, mirrors.mailboxIds_eq, mirrors.unlocked]
    rfl
  rw [asked, mirrors.variableLimit] at few
  have agrees := mirrors.deleteMailbox_agrees mailbox few
  have left := agrees.mirrors.stock_eq
  have done : Storage.deleteMailbox mailbox d = (.ok _, (Storage.deleteMailbox mailbox d).2) :=
    Prod.ext (agrees.answer.trans
      (congrArg Prod.fst (Memory.Store.deleteMailbox_eq inMemory.available mailbox))) rfl
  refine ⟨_, _, .of_confined kept done ?_ (deleteMailbox_confined mailbox d) fun uid => ?_⟩
  · show d.stock.Enumerates mailbox _
    rw [mirrors.stock_eq]
    exact m.enumerates mailbox
  · show (Storage.deleteMailbox mailbox d).2.stock.linkAt _ = none
    rw [left]
    exact Memory.Store.linkAt_deleteMailbox inMemory.available mailbox uid

end Database.Store

/-! ### After runs -/

/-- After calls under policies of their own, removals of messages and of mailboxes are exact. In
memory this is always so. In a database a message is removed if and only if the modification
sequences of the mailboxes in which it is linked have not reached the last number that the database
keeps, and a mailbox if and only if the engine carries the identifiers of its messages. -/
theorem removals_exact (steps : List (Policy × Call)) :
    (∀ bound,
      let m := Call.runUnder steps (Memory.Store.new bound)
      (∀ id, ∃ mailboxes after, UnlinksExactly id m mailboxes after) ∧
        ∀ mailbox, ∃ ids after, EmptiesExactly mailbox m ids after) ∧
    ∀ path bound,
      let d := Call.runUnder steps (Database.Store.new path bound)
      (∀ id, (∃ mailboxes after, UnlinksExactly id d mailboxes after) ↔
        ∀ mailbox uid, (stock d).LinksAt id ⟨mailbox, uid⟩ →
          (view d).highestModSeq mailbox < maxStored) ∧
        ∀ mailbox, (∃ ids after, EmptiesExactly mailbox d ids after) ↔
          (d.askedIds mailbox).size ≤ d.variableLimit := by
  refine ⟨fun bound => ?_, fun path bound => ?_⟩
  · have kept := Memory.Store.runUnder_isWellKept steps bound
    exact ⟨fun id => (unlinksExactly_iff kept id).mpr fun _ _ _ => trivial,
      Memory.Store.emptiesExactly kept⟩
  · have kept := Database.Store.runUnder_isWellKept steps path bound
    exact ⟨unlinksExactly_iff kept, Database.Store.emptiesExactly_iff kept⟩

/-- Where the modification sequence of a mailbox stands at the last number, a message that is found
in it is not removed. -/
theorem lastDeleteMessage_refused :
    let first := Call.runUnder [(⟨1, none⟩, .append "inbox" { id := "m1" } .epoch)]
      (Database.Store.new "mail" 1)
    let last :=
      Call.runUnder (List.replicate (maxStored - 1) (⟨1, none⟩, .nextModSeq "inbox")) first
    Storage.findMailboxes "m1" last = (.ok ["inbox"], last) ∧
      ¬ ∃ mailboxes after, deleteMessage "m1" last = (.ok mailboxes, after) := by
  intro first last
  have kept : IsWellKept first := Database.Store.runUnder_isWellKept _ "mail" 1
  have kept' : IsWellKept last := kept.runUnder _
  have start : first.view.highestModSeq "inbox" = 1 := by decide +kernel
  have answer : (Storage.findMailboxes "m1" first).1.toOption = some ["inbox"] := by
    decide +kernel
  obtain ⟨reached, linked⟩ : last.view.highestModSeq "inbox" = first.view.highestModSeq "inbox"
      + (maxStored - 1) ∧ last.stock = first.stock :=
    Database.Store.runUnder_counting ⟨1, none⟩ kept.sound (by rw [start]; decide)
  obtain ⟨names, found, mem_iff⟩ := Unlinks.findMailboxes "m1" kept
  obtain ⟨names', found', mem_iff'⟩ := Unlinks.findMailboxes "m1" kept'
  have sameStock : stock last = stock first := linked
  have same : names' = names := NameSet.ext fun mailbox => by rw [mem_iff', mem_iff, sameStock]
  rw [found] at answer
  have listed : names.toList = ["inbox"] := Option.some.inj answer
  rw [same, listed] at found'
  refine ⟨found', ?_⟩
  rintro ⟨mailboxes, after, done⟩
  obtain ⟨_, middle, looked, done⟩ := Step.of_bind_eq_ok done
  cases found'.symm.trans looked
  obtain ⟨_, counted, bumped, -⟩ := Step.of_bind_eq_ok done
  have hasNext : last.view.highestModSeq "inbox" < maxStored :=
    (bumpEach_ok_iff kept'.sound (List.nodup_singleton _)).mp ⟨counted, bumped⟩ "inbox"
      (List.mem_singleton_self _)
  rw [reached, start] at hasNext
  exact absurd hasNext (by decide)

end Mailroom
