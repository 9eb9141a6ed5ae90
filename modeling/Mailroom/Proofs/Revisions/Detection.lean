import Mathlib.Order.Defs.PartialOrder
import Mailroom.Proofs.Faults
/-!
Noticing a change of a mailbox by its highest modification sequence.

Every call that may change rows of a mailbox has counted up the modification sequences of that
mailbox before, and changes nothing if that failed. So a step of a run takes the counters up, and
where it leaves one as it is it leaves the rows of that mailbox as well (`Noticed`). A reset is
given a modification sequence that was counted up by another call; it must follow that call at once
(`ResetsFollow`), for a reading between the two would tell of a change that is still to come. Then
two readings that are equal enclose no change (`highestModSeq_detectsChanges`), whatever faults and
incidents made calls fail or stopped them half-way.
-/

namespace Mailroom

open Service

variable {σ ι α β : Type}

/-! ### Counters -/

namespace Database.Counter

/-- Counters are ordered by how far they were counted. One that ran over is the greatest. -/
instance : PartialOrder Counter where
  le := IsUpTo
  le_refl := isUpTo_refl
  le_trans _ _ _ := IsUpTo.trans
  le_antisymm first second sooner later := by
    cases first with
    | overflowed =>
      cases second with
      | overflowed => rfl
      | integer _ => exact sooner.elim
    | integer value =>
      cases second with
      | overflowed => exact later.elim
      | integer value' => exact congrArg integer (Int.le_antisymm sooner later)

theorem integer_lt {value value' : Int} (less : value < value') :
    integer value < integer value' :=
  lt_of_le_not_ge (Int.le_of_lt less) (Int.not_le.mpr less)

/-- A counter that gives out a number was counted up to it. -/
theorem lt_bump {counter : Counter} {sequence : Sequence} {n : Nat}
    (given : Store.readCounter sequence counter.bump = .ok n) : counter < counter.bump := by
  cases counter with
  | overflowed => cases given
  | integer value =>
    by_cases below : value < maxStored
    · rw [bump, if_pos below]
      exact integer_lt (Int.lt_succ value)
    · rw [bump, if_neg below] at given
      cases given

end Database.Counter

open Database (Counter)

/-! ### Marks -/

/-- A store of which one can tell how far the modification sequences of a mailbox were counted. -/
class Marked (σ : Type) [Storage σ] [Kept σ] where
  /-- The highest modification sequence, as a counter. -/
  markOf : Kept.Count σ → Counter
  markOf_le : ∀ {first second : Kept.Count σ}, Kept.IsUpTo first second →
    markOf first ≤ markOf second
  nextModSeq_lt : ∀ {mailbox modSeq} {store after : σ},
    Storage.nextModSeq mailbox store = (.ok modSeq, after) →
    markOf (Kept.countersOf store mailbox) < markOf (Kept.countersOf after mailbox)
  highestModSeq : ∀ {mailbox value} {store after : σ},
    .integer 0 ≤ markOf (Kept.countersOf store mailbox) →
    Storage.highestModSeq mailbox store = (.ok value, after) →
    markOf (Kept.countersOf store mailbox) = .integer value
  highestModSeq_looks : ∀ mailbox (store : σ), (Storage.highestModSeq mailbox store).2 = store
  findMailboxes_looks : ∀ id (store : σ), (Storage.findMailboxes id store).2 = store

/-- How far the modification sequences of a mailbox were counted. -/
def markAt [Storage σ] [Kept σ] [Marked σ] (store : σ) (mailbox : MailboxId) : Counter :=
  Marked.markOf (Kept.countersOf store mailbox)

/-- Modification sequences were counted up, and in any mailbox whose were not no row was changed. -/
structure Noticed [Storage σ] [Kept σ] [Marked σ] (store after : σ) : Prop where
  rises : ∀ mailbox, markAt store mailbox ≤ markAt after mailbox
  rows : ∀ mailbox, markAt after mailbox = markAt store mailbox →
    ∀ uid, SameRow ⟨mailbox, uid⟩ store after

section Noticing

variable [Storage σ] [Kept σ] [Marked σ] {store middle after : σ}

theorem noticed_chains : Chains (Noticed (σ := σ)) where
  refl _ := ⟨fun _ => le_rfl, fun _ _ _ => rfl⟩
  trans {store middle after} first second := by
    refine ⟨fun mailbox => (first.rises mailbox).trans (second.rises mailbox), ?_⟩
    intro mailbox same uid
    -- The counter went up in neither part.
    have between : markAt middle mailbox = markAt store mailbox :=
      le_antisymm (same ▸ second.rises mailbox) (first.rises mailbox)
    exact (sameRow_chains _).trans (first.rows mailbox between uid)
      (second.rows mailbox (same.trans between.symm) uid)

theorem markAt_le {mailboxes : MailboxId → Prop} (counted : OnlyCounted mailboxes store after)
    (mailbox : MailboxId) : markAt store mailbox ≤ markAt after mailbox :=
  Marked.markOf_le (counted.advanced mailbox)

theorem markAt_confined {touched : Place → Prop} (confined : Confined touched store after)
    (mailbox : MailboxId) : markAt after mailbox = markAt store mailbox :=
  congrArg Marked.markOf (congrFun confined.counters mailbox)

/-- What only counts changes no row. -/
theorem Noticed.of_counted {mailboxes : MailboxId → Prop}
    (counted : OnlyCounted mailboxes store after) : Noticed store after where
  rises := markAt_le counted
  rows _ _ _ := counted.sameRow _

/-- What changes rows of some mailboxes is noticed if their modification sequences were counted up
before. -/
theorem Noticed.of_confined (mailboxes : MailboxId → Prop) {others : MailboxId → Prop}
    (counted : OnlyCounted others store middle)
    (higher : ∀ mailbox, mailboxes mailbox → markAt store mailbox < markAt middle mailbox)
    (confined : Confined (fun place => mailboxes place.mailbox) middle after) :
    Noticed store after where
  rises mailbox := markAt_confined confined mailbox ▸ markAt_le counted mailbox
  rows mailbox same uid := by
    have apart : ¬ mailboxes mailbox := by
      intro changed
      have higher := higher mailbox changed
      rw [← markAt_confined confined mailbox, same] at higher
      exact lt_irrefl _ higher
    exact (sameRow_chains _).trans (counted.sameRow _) (confined.rows ⟨mailbox, uid⟩ apart)

/-- What changes no row is noticed. -/
theorem Noticed.of_unchanged (confined : Confined (fun _ => False) store after) :
    Noticed store after :=
  .of_confined (fun _ => False) ((onlyCounted_chains fun _ => False).refl store)
    (fun _ => False.elim) confined

variable [RollsBack σ]

/-- Changes of the rows of a mailbox after its modification sequences were counted up. -/
theorem noticed_after_nextModSeq {mailbox : MailboxId} {next : ModSeq → Step σ β}
    (confined : ∀ modSeq, (next modSeq).Within (Confined fun place => place.mailbox = mailbox)) :
    (Storage.nextModSeq mailbox >>= next).Within Noticed := by
  intro store
  have counted := RollsBack.nextModSeq mailbox store
  rcases done : Storage.nextModSeq mailbox store with ⟨_ | modSeq, middle⟩
  · rw [done] at counted
    rw [Step.bind_of_error done]
    exact .of_counted counted
  · rw [done] at counted
    rw [Step.bind_of_ok done]
    refine .of_confined (· = mailbox) counted ?_ (confined modSeq middle)
    rintro _ rfl
    exact Marked.nextModSeq_lt done

/-- Counting up in each of some mailboxes, if that succeeds. -/
theorem bumpEach_higher {mailboxes : List MailboxId}
    (done : bumpEach mailboxes store = (.ok (), after)) :
    ∀ mailbox ∈ mailboxes, markAt store mailbox < markAt after mailbox := by
  induction mailboxes generalizing store with
  | nil => exact List.forall_mem_nil _
  | cons mailbox rest ih =>
    obtain ⟨modSeq, middle, first, done⟩ := Step.of_bind_eq_ok done
    have counted := RollsBack.nextModSeq mailbox store
    have others := Call.bumpEach_counts rest middle
    rw [first] at counted
    rw [done] at others
    rw [List.forall_mem_cons]
    refine ⟨lt_of_lt_of_le (Marked.nextModSeq_lt first) (markAt_le others mailbox), ?_⟩
    exact fun other member => lt_of_le_of_lt (markAt_le counted other) (ih done other member)

end Noticing

/-! ### Calls -/

/-- The calls that count and change rows, but for resets, and the reading of what was counted. -/
def Service.Call.IsWatched : Call → Prop
  | nextUid _ | nextModSeq _ | highestModSeq _ | append .. | applyFlags .. | deleteByUids ..
  | deleteMessage _ => True
  | _ => False

section Calls

variable [Storage σ] [Kept σ] [Marked σ] [RollsBack σ] [Confines σ] {store : σ} {call : Call}

omit [RollsBack σ] in
/-- The rows of a store stay where they are looked for. -/
theorem Service.Call.run_orderly (policy : Policy) (watched : call.IsWatched)
    (orderly : isOrderly store) : isOrderly (call.run policy store).2 := by
  have chains : Chains fun store after : σ => isOrderly store → isOrderly after :=
    keeps_chains isOrderly
  have writes := Confines.writes (σ := σ)
  cases call with
  | nextUid mailbox => exact writes.nextUid mailbox store orderly
  | nextModSeq mailbox => exact writes.nextModSeq mailbox store orderly
  | highestModSeq mailbox => exact (Marked.highestModSeq_looks mailbox store).symm ▸ orderly
  | append mailbox new now => exact writes.append mailbox new now trivial store orderly
  | applyFlags mailbox uid update expected =>
    exact writes.applyFlags mailbox uid update expected store orderly
  | deleteByUids mailbox uids => exact deleteByUids_within chains writes mailbox uids store orderly
  | deleteMessage id =>
    have looks : (Storage.findMailboxes id : Step σ (List MailboxId)).Within _ :=
      .of_pure chains (Marked.findMailboxes_looks id)
    have removes (mailboxes : List MailboxId) : (bumpEach mailboxes >>= fun _ =>
        (Storage.deleteMessage id : Step σ (List MailboxId))).Within _ :=
      .bind chains (bumpEach_within chains writes.nextModSeq mailboxes) fun _ =>
        writes.deleteMessage id
    exact Step.Within.bind chains looks removes store orderly
  | _ => exact watched.elim

omit [Marked σ] [RollsBack σ] in
theorem resetRecent_orderly (mailbox : MailboxId) (uids : List Uid) (modSeq : ModSeq)
    (orderly : isOrderly store) : isOrderly (Service.resetRecent mailbox uids modSeq store).2 :=
  Service.resetRecent_within (keeps_chains isOrderly)
    (fun part fits ascending => Confines.orderly.resetRecent mailbox part modSeq fits ascending)
    uids store orderly

/-- Removing a message is noticed in every mailbox that holds it. -/
theorem deleteMessage_noticed (id : MessageId) (orderly : isOrderly store) :
    Noticed store (Service.deleteMessage id store).2 := by
  have looked := Marked.findMailboxes_looks id store
  unfold Service.deleteMessage
  rcases found : Storage.findMailboxes id store with ⟨_ | mailboxes, same⟩
  · rw [found] at looked
    rw [Step.bind_of_error found, looked]
    exact noticed_chains.refl store
  rw [found] at looked
  obtain rfl : same = store := looked
  rw [Step.bind_of_ok found]
  have counted := Call.bumpEach_counts mailboxes same
  rcases bumped : bumpEach mailboxes same with ⟨_ | _, middle⟩
  · rw [bumped] at counted
    rw [Step.bind_of_error bumped]
    exact .of_counted counted
  rw [bumped] at counted
  rw [Step.bind_of_ok bumped]
  have still : isOrderly middle := by
    have kept := bumpEach_within (keeps_chains isOrderly) Confines.writes.nextModSeq mailboxes same
    rw [bumped] at kept
    exact kept orderly
  refine .of_confined (· ∈ mailboxes) counted (bumpEach_higher bumped) ?_
  refine (Confines.deleteMessage id middle still).mono fun place linked => ?_
  exact Confines.findMailboxes orderly found place.mailbox
    (Confines.isLinked_same counted.kept linked)

/-- Every call is noticed. -/
theorem Service.Call.run_noticed (policy : Policy) (watched : call.IsWatched)
    (orderly : isOrderly store) : Noticed store (call.run policy store).2 := by
  cases call with
  | nextUid mailbox => exact .of_counted (RollsBack.nextUid mailbox store)
  | nextModSeq mailbox => exact .of_counted (RollsBack.nextModSeq mailbox store)
  | highestModSeq mailbox =>
    exact (Marked.highestModSeq_looks mailbox store).symm ▸ noticed_chains.refl store
  | append mailbox new now =>
    refine Step.Within.bind noticed_chains
      (fun store => .of_counted (RollsBack.nextUid mailbox store)) (fun uid => ?_) store
    refine noticed_after_nextModSeq fun modSeq => ?_
    refine .bind (confined_chains _) (fun store => ?_) fun _ => .pure (confined_chains _) _
    refine (Confines.insert (new.row mailbox uid modSeq now) store).mono ?_
    rintro _ rfl
    rfl
  | applyFlags mailbox uid update expected =>
    refine noticed_after_nextModSeq (fun modSeq store => ?_) store
    refine (Confines.updateFlags mailbox uid (.ofUpdate update) modSeq expected store).mono ?_
    rintro _ rfl
    rfl
  | deleteByUids mailbox uids =>
    show Noticed store (Service.deleteByUids mailbox uids store).2
    unfold Service.deleteByUids
    split
    · exact noticed_chains.refl store
    refine noticed_after_nextModSeq (fun _ store => ?_) store
    refine runPartitioned_within (confined_chains _) (fun part _ store => ?_) store
    exact (Confines.deleteBatch mailbox part store).mono fun _ named => named.1
  | deleteMessage id => exact deleteMessage_noticed id orderly
  | _ => exact watched.elim

/-- A reset is noticed together with the call that counted up its modification sequence. -/
theorem resetRecent_noticed {mailbox : MailboxId} {modSeq : ModSeq} {middle : σ}
    (done : Storage.nextModSeq mailbox store = (.ok modSeq, middle)) (uids : List Uid) :
    Noticed store (Service.resetRecent mailbox uids modSeq middle).2 := by
  have counted := RollsBack.nextModSeq mailbox store
  rw [done] at counted
  refine .of_confined (· = mailbox) counted ?_ ?_
  · rintro _ rfl
    exact Marked.nextModSeq_lt done
  · refine Service.resetRecent_within (confined_chains _) (fun part _ ascending store => ?_) uids _
    exact (Confines.resetRecent mailbox part modSeq ascending store).mono fun _ named => named.1

end Calls

/-! ### Runs -/

section Runs

variable [Storage σ] [Exposed σ ι] [Kept σ] [Confines σ] [Endures σ]

/-- A run in which each reset comes directly after the call that counted up its modification
sequence, and in which the store is not lost. -/
inductive ResetsFollow : List (Happening ι) → σ → Prop where
  | nil {store} : ResetsFollow [] store
  | called {policy call rest store} (watched : call.IsWatched)
      (rests : ResetsFollow rest (call.run policy store).2) :
      ResetsFollow (.made policy call :: rest) store
  | reset {policy policy' mailbox uids modSeq rest store}
      (given : (Storage.nextModSeq mailbox store).1 = .ok modSeq)
      (rests : ResetsFollow rest (Service.resetRecent mailbox uids modSeq
        (Storage.nextModSeq mailbox store).2).2) :
      ResetsFollow (.made policy (.nextModSeq mailbox) ::
        .made policy' (.resetRecent mailbox uids modSeq) :: rest) store
  | suffered {incident rest store} (endured : isEndured incident store)
      (rests : ResetsFollow rest (befall incident store)) :
      ResetsFollow (.suffered incident :: rest) store

/-- Such a run may be cut before any call but a reset. -/
theorem ResetsFollow.cut {first rest : List (Happening ι)} {policy : Policy} {call : Call}
    {store : σ} (follows : ResetsFollow (first ++ .made policy call :: rest) store)
    (watched : call.IsWatched) :
    ResetsFollow first store ∧
      ResetsFollow (.made policy call :: rest) (Happening.runAll first store).2 := by
  generalize split : first ++ .made policy call :: rest = happenings at follows
  induction follows generalizing first with
  | nil => exact absurd split (by simp)
  | @called _ _ later _ isWatched rests ih =>
    cases first with
    | nil =>
      rw [List.nil_append] at split
      exact ⟨.nil, split ▸ .called isWatched rests⟩
    | cons head first =>
      injection split with head split
      subst head
      obtain ⟨before, after⟩ := ih split
      exact ⟨.called isWatched before, after⟩
  | reset given rests ih =>
    cases first with
    | nil =>
      rw [List.nil_append] at split
      exact ⟨.nil, split ▸ .reset given rests⟩
    | cons head first =>
      injection split with head split
      subst head
      cases first with
      | nil =>
        injection split with same
        injection same with _ same
        subst same
        exact watched.elim
      | cons head first =>
        injection split with head split
        subst head
        obtain ⟨before, after⟩ := ih split
        exact ⟨.reset given before, after⟩
  | suffered endured rests ih =>
    cases first with
    | nil => cases split
    | cons head first =>
      injection split with head split
      subst head
      obtain ⟨before, after⟩ := ih split
      exact ⟨.suffered endured before, after⟩

/-- Two readings of the highest modification sequence of a mailbox that are equal enclose no change
of its rows. -/
def DetectsChanges (start : σ) : Prop :=
  ∀ (first between rest : List (Happening ι)) (policy policy' : Policy) mailbox (value : ModSeq),
    ResetsFollow (first ++ .made policy (.highestModSeq mailbox) :: between
      ++ .made policy' (.highestModSeq mailbox) :: rest) start →
    let reading : Call := .highestModSeq mailbox
    let early := (Happening.runAll first start).2
    let late := (Happening.runAll (.made policy reading :: between) early).2
    (reading.run policy early).1 = .ok value → (reading.run policy' late).1 = .ok value →
    ∀ uid, SameRow ⟨mailbox, uid⟩ early late

variable [Marked σ] [RollsBack σ]

/-- A whole run is noticed. -/
theorem ResetsFollow.noticed {happenings : List (Happening ι)} {store : σ}
    (follows : ResetsFollow happenings store) (orderly : isOrderly store) :
    isOrderly (Happening.runAll happenings store).2 ∧
      Noticed store (Happening.runAll happenings store).2 := by
  induction follows with
  | nil => exact ⟨orderly, noticed_chains.refl _⟩
  | @called policy call _ _ watched _ ih =>
    obtain ⟨still, noticed⟩ := ih (call.run_orderly policy watched orderly)
    exact ⟨still, noticed_chains.trans (call.run_noticed policy watched orderly) noticed⟩
  | @reset _ _ mailbox uids modSeq _ store given _ ih =>
    have done : Storage.nextModSeq mailbox store
        = (.ok modSeq, (Storage.nextModSeq mailbox store).2) := Prod.ext given rfl
    have counted := Confines.orderly.nextModSeq mailbox store orderly
    obtain ⟨still, noticed⟩ := ih (resetRecent_orderly mailbox uids modSeq counted)
    exact ⟨still, noticed_chains.trans (resetRecent_noticed done uids) noticed⟩
  | suffered endured _ ih =>
    obtain ⟨still, kept⟩ := Endures.befall _ _ endured orderly
    obtain ⟨still, noticed⟩ := ih still
    exact ⟨still, noticed_chains.trans (.of_unchanged kept) noticed⟩

/-- A store whose counters were never negative detects changes. -/
theorem detectsChanges (start : σ) (orderly : isOrderly start)
    (counted : ∀ mailbox, .integer 0 ≤ markAt start mailbox) :
    DetectsChanges start := by
  intro first between rest policy policy' mailbox value follows reading early late read reread
  have watched : reading.IsWatched := trivial
  obtain ⟨follows, -⟩ := follows.cut watched
  obtain ⟨before, after⟩ := follows.cut watched
  obtain ⟨still, risen⟩ := before.noticed orderly
  obtain ⟨-, noticed⟩ := after.noticed still
  have sinceStart := (counted mailbox).trans (risen.rises mailbox)
  have marked : markAt early mailbox = .integer value :=
    Marked.highestModSeq sinceStart (Prod.ext read rfl)
  have remarked : markAt late mailbox = .integer value :=
    Marked.highestModSeq (sinceStart.trans (noticed.rises mailbox)) (Prod.ext reread rfl)
  exact noticed.rows mailbox (remarked.trans marked.symm)

end Runs

/-! ### The stores -/

instance : Marked Memory.Store where
  markOf counters := .integer counters.highestModSeq
  markOf_le further := Int.ofNat_le.mpr further.2
  nextModSeq_lt {mailbox _ m _} done := by
    obtain ⟨-, rfl⟩ := Memory.Store.allocate_ok (Step.of_write_eq_ok done)
    refine Counter.integer_lt (Int.ofNat_lt.mpr ?_)
    show _ < (Memory.Store.countersOf _ mailbox).highestModSeq
    rw [Memory.countersOf_insert, if_pos rfl]
    exact Nat.lt_succ_self _
  highestModSeq _ done := by
    obtain ⟨_, -, answered⟩ := Outcomes.bind_eq_ok.mp (Prod.mk.inj done).1
    cases answered
    rfl
  highestModSeq_looks _ _ := rfl
  findMailboxes_looks _ _ := rfl

instance : Marked Database.Store where
  markOf row := row.highestModSeq
  markOf_le further := further.2
  nextModSeq_lt {mailbox _ d _} done := by
    have done : Database.Store.nextModSeq mailbox d = _ := done
    obtain ⟨-, given, rfl⟩ := Database.Store.allocate_ok done
    show _ < (Database.Store.countersOf _ mailbox).highestModSeq
    rw [Database.Store.countersOf_insert, if_pos rfl]
    exact Counter.lt_bump given
  highestModSeq {mailbox _ d _} counted done := by
    obtain ⟨⟨_, n⟩, read, answered⟩ := Outcomes.bind_eq_ok.mp (Prod.mk.inj done).1
    cases answered
    obtain ⟨_, -, read⟩ := Outcomes.bind_eq_ok.mp read
    split at read
    · rename_i stored
      cases read
      change .integer 0 ≤ (d.countersOf mailbox).highestModSeq at counted
      show (d.countersOf mailbox).highestModSeq = _
      rw [stored] at counted ⊢
      exact congrArg Counter.integer (Int.toNat_of_nonneg counted).symm
    · cases read
  highestModSeq_looks _ _ := rfl
  findMailboxes_looks _ _ := rfl

instance [Storage σ] [Kept σ] [Marked σ] : Marked (Faulty σ) where
  markOf := Marked.markOf (σ := σ)
  markOf_le := Marked.markOf_le (σ := σ)
  nextModSeq_lt done := Marked.nextModSeq_lt (σ := σ) (Faulty.of_lift done)
  highestModSeq counted done := Marked.highestModSeq (σ := σ) counted (Faulty.of_lift done)
  highestModSeq_looks mailbox faulty :=
    congrArg (fun store => { faulty with store }) (Marked.highestModSeq_looks mailbox faulty.store)
  findMailboxes_looks id faulty :=
    congrArg (fun store => { faulty with store }) (Marked.findMailboxes_looks id faulty.store)

/-- In memory and in the database, with and without faults, no change of a mailbox escapes its
highest modification sequence. -/
theorem highestModSeq_detectsChanges :
    (∀ faulty : Faulty Memory.Store, faulty.store.IsKeyed →
      DetectsChanges faulty.store ∧ DetectsChanges faulty) ∧
    ∀ faulty : Faulty Database.Store,
      (∀ mailbox n, (faulty.store.countersOf mailbox).highestModSeq = .integer n → 0 ≤ n) →
      DetectsChanges faulty.store ∧ DetectsChanges faulty := by
  refine ⟨fun faulty keyed => ?_, fun faulty counted => ?_⟩
  · have nonneg (mailbox : MailboxId) : .integer 0 ≤ markAt faulty.store mailbox :=
      Int.natCast_nonneg _
    exact ⟨detectsChanges _ keyed nonneg, detectsChanges faulty keyed nonneg⟩
  · have nonneg (mailbox : MailboxId) : .integer 0 ≤ markAt faulty.store mailbox := by
      show .integer 0 ≤ (faulty.store.countersOf mailbox).highestModSeq
      cases stored : (faulty.store.countersOf mailbox).highestModSeq with
      | integer n => exact counted mailbox n stored
      | overflowed => trivial
    exact ⟨detectsChanges _ trivial nonneg, detectsChanges faulty trivial nonneg⟩

/-- Two messages are added, the first loses its recent flag, and of the removal of both the second
half fails. -/
def partialRemoval : List (Happening (Faulty.Incident ι)) :=
  [.made ⟨1, none⟩ (.append "inbox" { id := "m1", flags.recent := true } .epoch),
    .made ⟨1, none⟩ (.append "inbox" { id := "m2" } .epoch),
    .made ⟨1, none⟩ (.nextModSeq "inbox"), .made ⟨1, none⟩ (.resetRecent "inbox" [1] 3),
    .suffered (.arm [2] .timeout none), .made ⟨1, none⟩ (.deleteByUids "inbox" [1, 2])]

/-- After a reading an update fails, for the store is out of service. Then a row number is given out
and a message is added elsewhere. -/
def refusedUpdate (out back : ι) : List (Happening (Faulty.Incident ι)) :=
  [.made ⟨1, none⟩ (.highestModSeq "inbox"), .suffered (.inner out),
    .made ⟨1, none⟩ (.applyFlags "inbox" 2 ⟨{ seen := true }, .add⟩ none),
    .suffered (.inner back), .made ⟨1, none⟩ (.nextUid "inbox"),
    .made ⟨1, none⟩ (.append "archive" { id := "m2" } .epoch)]

/-- The highest modification sequence of the inbox, and which of its first rows there are. -/
def readInbox [Storage σ] (store : σ) : Option ModSeq × List Uid :=
  (((Call.highestModSeq "inbox").run ⟨1, none⟩ store).1.toOption,
    [1, 2].filter fun uid => (Storage.find "inbox" uid .metadata store).1.toOption.join.isSome)

section Readings

variable [Storage σ] [Exposed σ ι] [Kept σ] [Confines σ] [Endures σ]

/-- The removal leaves the second row. Equal readings of the inbox enclose the update that is
refused, and no change. -/
structure TellsNothing (out back : ι) (start early late : Faulty σ) : Prop where
  early_eq : early = (Happening.runAll partialRemoval start).2
  late_eq : late = (Happening.runAll (refusedUpdate out back) early).2
  follows : ResetsFollow
    (partialRemoval ++ refusedUpdate out back ++ [.made ⟨1, none⟩ (.highestModSeq "inbox")]) start
  readings : readInbox early = (some 4, [2]) ∧ readInbox late = (some 4, [2])
  rows : ∀ uid, SameRow ⟨"inbox", uid⟩ early late

/-- The reset of that run is given what was counted up directly before. -/
theorem partialRemoval_follows (out back : ι) (start : Faulty σ)
    (given : (Storage.nextModSeq "inbox" (Happening.runAll (partialRemoval.take 2) start).2).1
      = .ok 3)
    (leaves : ∀ store : σ, isEndured out store) (returns : ∀ store : σ, isEndured back store) :
    ResetsFollow (partialRemoval ++ refusedUpdate out back
      ++ [.made ⟨1, none⟩ (.highestModSeq "inbox")]) start :=
  .called trivial <| .called trivial <| .reset given <| .suffered trivial <| .called trivial <|
  .called trivial <| .suffered (leaves _) <| .called trivial <| .suffered (returns _) <|
  .called trivial <| .called trivial <| .called trivial .nil

end Readings

/-- A removal that fails half-way and an update that is refused between two equal readings. -/
theorem highestModSeq_detectsChanges_refusedUpdate :
    (∃ early late, TellsNothing (.switch false) (.switch true)
      ({ store := Memory.Store.new 1 } : Faulty Memory.Store) early late) ∧
    ∃ early late, TellsNothing (.lock true) (.lock false)
      ({ store := Database.Store.new "mail" 1 } : Faulty Database.Store) early late := by
  constructor
  · have follows := partialRemoval_follows (Memory.Incident.switch false) (.switch true)
      { store := Memory.Store.new 1 } rfl (fun _ => trivial) fun _ => trivial
    refine ⟨_, _, rfl, rfl, follows, by decide +kernel, ?_⟩
    have keyed := Memory.Store.new_keyed 1
    exact (highestModSeq_detectsChanges.1 _ keyed).2 _ _ _ _ _ "inbox" 4 follows rfl rfl
  · have follows := partialRemoval_follows (Database.Incident.lock true) (.lock false)
      { store := Database.Store.new "mail" 1 } rfl (fun _ => trivial) fun _ => trivial
    refine ⟨_, _, rfl, rfl, follows, by decide +kernel, ?_⟩
    refine (highestModSeq_detectsChanges.2 _ ?_).2 _ _ _ _ _ "inbox" 4 follows rfl rfl
    intro mailbox n stored
    cases stored
    exact Int.le_refl 0

end Mailroom
