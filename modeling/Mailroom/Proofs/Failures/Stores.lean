import Mailroom.Proofs.Database.Rows
import Mailroom.Proofs.Database.Writes
import Mailroom.Proofs.Failures.Calls
import Mailroom.Proofs.Memory.Counters
/-!
What the two stores leave behind when a call fails.

Both of them roll back, whatever stands in them: in memory a write computes the store as a whole
before it puts it in place, in the database it is a transaction. The database looks at the state of
a change only after its transaction has ended. So the one call that leaves half-done work is the
recording of a change under a state below 0 (`Database.Store.Strands`), which another program must
have put there (`failures_leaveNothing`, `strandedChange_isKept`).
-/

namespace Mailroom

open Service

/-! ### Memory -/

namespace Memory.Store

variable {m after : Store} {mailbox : MailboxId} {place : Place} {uids : List Uid}

/-- A row whose number is not pending is not reset. -/
theorem get?_resetStore {modSeq : ModSeq} (apart : place.mailbox = mailbox → place.uid ∉ uids) :
    (resetStore m mailbox modSeq uids).rows.get? place = m.rows.get? place := by
  show (m.rows.mapValues _).get? _ = _
  rw [Table.get?_mapValues]
  cases m.rows.get? place with
  | none => rfl
  | some row => exact congrArg some (if_neg fun h => apart h.1 h.2)

/-- A row that is not among those to be removed stays. -/
theorem get?_keepRows {keep : Place → Message → Bool}
    (stays : ∀ row, m.rows.get? place = some row → keep place row = true) :
    (m.keepRows keep).rows.get? place = m.rows.get? place := by
  show (m.rows.filter _).get? _ = _
  rw [Table.get?_filter]
  cases found : m.rows.get? place with
  | none => rfl
  | some row => exact Option.filter_some_pos (stays row found)

end Memory.Store

instance : Kept Memory.Store where
  Row := Option Message
  rowAt m := m.rows.get?
  Count := Memory.Counters
  countersOf := Memory.Store.countersOf
  IsUpTo counters counters' :=
    counters.lastUid ≤ counters'.lastUid ∧ counters.highestModSeq ≤ counters'.highestModSeq
  SameButCounters m after := after = { m with counters := after.counters }
  IsLinked m id mailbox := ∃ row ∈ m.rows.values, row.messageId = id ∧ row.mailbox = mailbox
  same_chains := {
    refl := fun _ => rfl
    trans := fun {m middle after} first second => by
      change middle = { m with counters := middle.counters } at first
      change after = { middle with counters := after.counters } at second
      rw [second, first] }
  upTo_refl _ := ⟨Nat.le_refl _, Nat.le_refl _⟩
  upTo_trans first second := ⟨Nat.le_trans first.1 second.1, Nat.le_trans first.2 second.2⟩
  rowAt_same {m after} same := by
    change after = { m with counters := after.counters } at same
    rw [same]

/-- Counting up in memory changes the counters of one mailbox. -/
theorem Memory.Store.onlyCounted {m : Memory.Store} {mailbox : MailboxId} {counters : Counters}
    (lastUid : (m.countersOf mailbox).lastUid ≤ counters.lastUid)
    (highestModSeq : (m.countersOf mailbox).highestModSeq ≤ counters.highestModSeq) :
    OnlyCounted (· = mailbox) m { m with counters := m.counters.insert mailbox counters } where
  kept := rfl
  advanced := countersRise_insert lastUid highestModSeq
  elsewhere _ apart := countersOf_insert.trans (if_neg (Ne.symm apart))

/-- A write in memory that fails leaves the store as it was. -/
theorem Memory.Store.write_fails {α : Type}
    (f : Memory.Store → Except StoreError (α × Memory.Store)) :
    (Step.write f).FailsWithin Untouched := fun _ _ _ fails =>
  Step.of_write_eq_error fails ▸ (onlyCounted_chains _).refl _

instance : RollsBack Memory.Store where
  nextUid mailbox m := by
    show OnlyCounted _ m (Step.write (Memory.Store.nextUid mailbox) m).2
    cases counted : Memory.Store.nextUid mailbox m with
    | error e =>
      rw [Step.write_of_error counted]
      exact (onlyCounted_chains _).refl m
    | ok outcome =>
      obtain ⟨uid, after⟩ := outcome
      rw [Step.write_of_ok counted]
      obtain ⟨-, rfl⟩ := Memory.Store.allocate_ok counted
      exact Memory.Store.onlyCounted (Nat.le_succ _) (Nat.le_refl _)
  nextModSeq mailbox m := by
    show OnlyCounted _ m (Step.write (Memory.Store.nextModSeq mailbox) m).2
    cases counted : Memory.Store.nextModSeq mailbox m with
    | error e =>
      rw [Step.write_of_error counted]
      exact (onlyCounted_chains _).refl m
    | ok outcome =>
      obtain ⟨modSeq, after⟩ := outcome
      rw [Step.write_of_ok counted]
      obtain ⟨-, rfl⟩ := Memory.Store.allocate_ok counted
      exact Memory.Store.onlyCounted (Nat.le_refl _) (Nat.le_succ _)
  insert _ := Memory.Store.write_fails _
  updateFlags _ _ _ _ _ := Memory.Store.write_fails _
  resetRecent _ _ _ := Memory.Store.write_fails _
  resetRecent_elsewhere mailbox uids modSeq ascending uid apart := by
    refine .write (sameRow_chains _) fun done => ?_
    obtain ⟨-, rfl⟩ := Memory.Store.resetRecent_ok (ascending.imp Nat.ne_of_lt) done
    exact Memory.Store.get?_resetStore fun _ pending => apart (Memory.mem_pending.mp pending).1
  deleteBatch _ _ := Memory.Store.write_fails _
  deleteBatch_elsewhere mailbox uids _ uid apart := by
    refine .write (sameRow_chains _) fun {m _ _} done => ?_
    rw [Memory.Store.deleteBatch_ok done]
    exact Memory.Store.get?_keepRows fun _ _ => by simp [apart]
  deleteMailbox _ := Memory.Store.write_fails _
  deleteMessage _ := Memory.Store.write_fails _
  findMailboxes {id mailboxes m after} found mailbox member := by
    obtain ⟨_, -, answered⟩ := Outcomes.bind_eq_ok.mp (Prod.mk.inj found).1
    cases answered
    obtain ⟨row, chosen, here⟩ := List.mem_map.mp (NameSet.mem_ofList.mp member)
    obtain ⟨place, found⟩ := Table.mem_values_iff.mp chosen
    rw [Table.get?_filter, Option.filter_eq_some_iff, decide_eq_true_eq] at found
    exact ⟨row, Table.mem_values_iff.mpr ⟨place, found.1⟩, found.2, here⟩
  purgeExpired _ := Memory.Store.write_fails _

/-! ### The database -/

namespace Database

/-- A counter that stands where another one stood, or further on. -/
def Counter.IsUpTo : Counter → Counter → Prop
  | integer value, integer value' => value ≤ value'
  | _, overflowed => True
  | overflowed, integer _ => False

theorem Counter.isUpTo_refl (counter : Counter) : counter.IsUpTo counter := by
  cases counter with
  | integer value => exact Int.le_refl value
  | overflowed => trivial

theorem Counter.IsUpTo.trans {first second third : Counter} (sooner : first.IsUpTo second)
    (later : second.IsUpTo third) : first.IsUpTo third := by
  cases third with
  | overflowed => cases first <;> trivial
  | integer value =>
    cases second with
    | overflowed => exact later.elim
    | integer value' =>
      cases first with
      | overflowed => exact sooner.elim
      | integer value'' => exact Int.le_trans sooner later

theorem Counter.isUpTo_bump (counter : Counter) : counter.IsUpTo counter.bump := by
  cases counter with
  | overflowed => trivial
  | integer value =>
    by_cases below : value < maxStored
    · rw [bump, if_pos below]
      exact Int.le_add_one (Int.le_refl value)
    · rw [bump, if_neg below]
      trivial

end Database

open Database (CounterRow Counter MessageRow)

instance : Kept Database.Store where
  Row := Option MessageRow × List (Place × String)
  rowAt d place := (d.database.messages.get? place, d.database.keywords.filter (·.1 = place))
  Count := CounterRow
  countersOf := Database.Store.countersOf
  IsUpTo row row' := row.lastUid.IsUpTo row'.lastUid ∧ row.highestModSeq.IsUpTo row'.highestModSeq
  SameButCounters d after := after = { d with
    database := { d.database with counters := after.database.counters }
    isKeywordCompiled := after.isKeywordCompiled }
  IsLinked d id mailbox := ∃ uid row, d.database.messages.get? ⟨mailbox, uid⟩ = some row ∧
    row.messageId = .text id
  same_chains := {
    refl := fun _ => rfl
    trans := fun {d middle after} first second => by
      change middle = { d with
        database := { d.database with counters := middle.database.counters }
        isKeywordCompiled := middle.isKeywordCompiled } at first
      change after = { middle with
        database := { middle.database with counters := after.database.counters }
        isKeywordCompiled := after.isKeywordCompiled } at second
      rw [second, first] }
  upTo_refl _ := ⟨Counter.isUpTo_refl _, Counter.isUpTo_refl _⟩
  upTo_trans first second := ⟨first.1.trans second.1, first.2.trans second.2⟩
  rowAt_same {d after} same := by
    change after = { d with
      database := { d.database with counters := after.database.counters }
      isKeywordCompiled := after.isKeywordCompiled } at same
    rw [same]

namespace Database.Store

variable {d : Store} {mailbox : MailboxId} {place : Place} {uids : List Uid}

/-- Counting up in the database changes the counters of one mailbox. -/
theorem onlyCounted {row : CounterRow}
    (lastUid : (d.countersOf mailbox).lastUid.IsUpTo row.lastUid)
    (highestModSeq : (d.countersOf mailbox).highestModSeq.IsUpTo row.highestModSeq) :
    OnlyCounted (· = mailbox) d
      { d with database := { d.database with
        counters := d.database.counters.insert mailbox row } } := by
  refine ⟨rfl, fun other => ?_, fun other apart =>
    countersOf_insert.trans (if_neg (Ne.symm apart))⟩
  show (d.countersOf other).lastUid.IsUpTo (Store.countersOf _ other).lastUid ∧
    (d.countersOf other).highestModSeq.IsUpTo (Store.countersOf _ other).highestModSeq
  rw [countersOf_insert]
  split
  · rename_i same
    exact same ▸ ⟨lastUid, highestModSeq⟩
  · exact ⟨Counter.isUpTo_refl _, Counter.isUpTo_refl _⟩

theorem transaction_fails {α : Type} (f : Store → Except StoreError (α × Database)) :
    (transaction f).FailsWithin Untouched := fun _ _ _ fails =>
  transaction_error fails ▸ (onlyCounted_chains _).refl _

theorem compileKeyword_untouched (reached : Database → Bool) :
    (compileKeyword reached).Within Untouched :=
  .write (onlyCounted_chains _) fun done => by
    cases done
    exact ⟨rfl, fun _ => ⟨Counter.isUpTo_refl _, Counter.isUpTo_refl _⟩, fun _ _ => rfl⟩

/-- Counting up leaves everything else as it is, even if the new value is refused. -/
theorem allocate_counts {sequence : Sequence} {bump : CounterRow → Counter × CounterRow}
    (lastUid : ∀ row : CounterRow, row.lastUid.IsUpTo (bump row).2.lastUid)
    (highestModSeq : ∀ row : CounterRow, row.highestModSeq.IsUpTo (bump row).2.highestModSeq) :
    (allocate mailbox sequence bump).Within (OnlyCounted (· = mailbox)) := by
  refine allocate_within (onlyCounted_chains _) ?_
  refine transaction_within (onlyCounted_chains _) fun counted => ?_
  cases counted
  exact onlyCounted (lastUid _) (highestModSeq _)

theorem nextUid_counts (mailbox : MailboxId) :
    (nextUid mailbox).Within (OnlyCounted (· = mailbox)) :=
  allocate_counts (fun row => row.lastUid.isUpTo_bump) fun row => row.highestModSeq.isUpTo_refl

theorem nextModSeq_counts (mailbox : MailboxId) :
    (nextModSeq mailbox).Within (OnlyCounted (· = mailbox)) :=
  allocate_counts (fun row => row.lastUid.isUpTo_refl) fun row => row.highestModSeq.isUpTo_bump

/-- The numbers that a reset changes are among those that it is given. -/
theorem sortUids_changing {db : Database} {target : Cell} {missing applied changing : List Uid}
    (sorted : sortUids db mailbox target uids = .ok (missing, applied, changing)) :
    ∀ uid ∈ changing, uid ∈ uids := by
  induction uids generalizing missing applied changing with
  | nil =>
    cases sorted
    exact fun _ member => member
  | cons first rest ih =>
    obtain ⟨⟨missing', applied', changing'⟩, later, sorted⟩ := Outcomes.bind_eq_ok.mp sorted
    have among := fun uid member => List.mem_cons_of_mem first (ih later uid member)
    simp only at sorted
    split at sorted
    · cases sorted
      exact among
    · obtain ⟨modSeq, -, sorted⟩ := Outcomes.bind_eq_ok.mp sorted
      split at sorted
      · cases sorted
        exact among
      · cases sorted
        exact List.forall_mem_cons.mpr ⟨List.mem_cons_self, among⟩

/-- A reset leaves what stands under other numbers. -/
theorem resetBatch_elsewhere {modSeq : ModSeq} {outcome : RecentReset} {db : Database}
    (apart : place.mailbox = mailbox → place.uid ∉ uids)
    (done : Mirror.resetBatch mailbox uids modSeq d = .ok (outcome, db)) :
    SameRow place d { d with database := db } := by
  obtain ⟨_, -, done⟩ := Outcomes.bind_eq_ok.mp done
  obtain ⟨⟨missing, applied, changing⟩, sorted, done⟩ := Outcomes.bind_eq_ok.mp done
  simp only at done
  split at done
  · cases done
    rfl
  · obtain ⟨_, -, done⟩ := Outcomes.bind_eq_ok.mp done
    obtain ⟨_, -, done⟩ := Outcomes.bind_eq_ok.mp done
    cases done
    have unchanged :
        ¬ (decide (place.mailbox = mailbox) && changing.contains place.uid) = true := by
      rw [Bool.and_eq_true, decide_eq_true_eq, List.contains_iff_mem]
      exact fun both => apart both.1 (sortUids_changing sorted place.uid both.2)
    refine congrArg (·, d.database.keywords.filter (·.1 = place)) ?_
    show (d.database.messages.mapValues _).get? _ = _
    rw [Table.get?_mapValues]
    cases d.database.messages.get? place with
    | none => rfl
    | some row => exact congrArg some (if_neg unchanged)

/-- A removal leaves what stands at places whose row it does not remove. -/
theorem rowAt_removeMessages {db : Database} {remove : Place → MessageRow → Bool} {place : Place}
    (stays : ∀ row, db.messages.get? place = some row → remove place row = false) :
    (removeMessages db remove).messages.get? place = db.messages.get? place ∧
      (removeMessages db remove).keywords.filter (·.1 = place)
        = db.keywords.filter (·.1 = place) := by
  constructor
  · show (db.messages.filter _).get? place = _
    rw [Table.get?_filter]
    cases found : db.messages.get? place with
    | none => rfl
    | some row => exact Option.filter_some_pos (by rw [stays row found]; rfl)
  · have unnamed : place ∉ (db.messages.filter remove).entries.map (·.1) := by
      intro named
      obtain ⟨⟨_, row⟩, member, rfl⟩ := List.mem_map.mp named
      obtain ⟨listed, removed⟩ := List.mem_filter.mp member
      cases (stays row (Table.get?_eq_some_iff.mpr listed)).symm.trans removed
    show (db.keywords.filter _).filter _ = _
    rw [List.filter_filter]
    refine List.filter_congr fun keyword _ => ?_
    by_cases here : keyword.1 = place
    · simp only [here, List.contains_iff_mem, unnamed, decide_true, Bool.true_and,
        Bool.not_eq_true', Bool.eq_false_iff, ne_eq, not_false_eq_true]
    · simp [here]

theorem deleteBatch_elsewhere (apart : place.mailbox = mailbox → place.uid ∉ uids) :
    (deleteBatch mailbox uids).Within (SameRow place) := by
  unfold deleteBatch
  simp only
  split
  · exact .pure (sameRow_chains _) _
  refine transaction_within (sameRow_chains _) fun {d _ _} deleted => ?_
  obtain ⟨_, -, deleted⟩ := Outcomes.bind_eq_ok.mp deleted
  obtain ⟨collected, contents, deleted⟩ := Outcomes.bind_eq_ok.mp deleted
  cases deleted
  have stays : ∀ row : MessageRow, d.database.messages.get? place = some row →
      (fun (place : Place) (_ : MessageRow) =>
        place.mailbox = mailbox && (storedUids uids).contains place.uid) place row = false := by
    intro _ _
    by_cases here : place.mailbox = mailbox
    · simp [storedUids, here, apart here]
    · simp [here]
  rw [collectContents_ok contents]
  exact Prod.ext (rowAt_removeMessages stays).1 (rowAt_removeMessages stays).2

end Database.Store

instance : RollsBack Database.Store where
  nextUid := Database.Store.nextUid_counts
  nextModSeq := Database.Store.nextModSeq_counts
  insert _ :=
    .check_bind (onlyCounted_chains _) fun _ => .check_bind (onlyCounted_chains _) fun _ =>
      .bind (onlyCounted_chains _) (Database.Store.compileKeyword_untouched _) fun _ =>
        Database.Store.transaction_fails _
  updateFlags mailbox uid _ _ _ := by
    refine .check_bind (onlyCounted_chains _) fun _ => ?_
    split
    · exact .of_within (.fail (onlyCounted_chains _) _)
    · exact .bind (onlyCounted_chains _) (Database.Store.compileKeyword_untouched _) fun _ =>
        Database.Store.transaction_fails _
  resetRecent mailbox uids modSeq := by
    show (Database.Store.resetRecent mailbox uids modSeq).FailsWithin _
    unfold Database.Store.resetRecent
    split
    · exact .of_within (.pure (onlyCounted_chains _) _)
    · exact .check_bind (onlyCounted_chains _) fun _ => Database.Store.transaction_fails _
  resetRecent_elsewhere mailbox uids modSeq _ uid apart := by
    show (Database.Store.resetRecent mailbox uids modSeq).Within _
    by_cases fits : modSeq ≤ maxStored
    · by_cases empty : uids = []
      · rw [empty]
        exact .pure (sameRow_chains _) _
      · rw [Mirror.resetRecent_eq mailbox empty fits]
        exact Database.Store.transaction_within (sameRow_chains _)
          (Database.Store.resetBatch_elsewhere fun _ => apart)
    · unfold Database.Store.resetRecent
      split
      · exact .pure (sameRow_chains _) _
      · rw [Database.storable_of_gt (Nat.not_le.mp fits), Step.check_error_bind]
        exact .fail (sameRow_chains _) _
  deleteBatch mailbox uids := by
    show (Database.Store.deleteBatch mailbox uids).FailsWithin _
    unfold Database.Store.deleteBatch
    simp only
    split
    · exact .of_within (.pure (onlyCounted_chains _) _)
    · exact Database.Store.transaction_fails _
  deleteBatch_elsewhere _ _ _ _ apart := Database.Store.deleteBatch_elsewhere fun _ => apart
  deleteMailbox _ := Database.Store.transaction_fails _
  deleteMessage _ := Database.Store.transaction_fails _
  findMailboxes {id mailboxes d after} found mailbox member := by
    obtain ⟨_, -, answered⟩ := Outcomes.bind_eq_ok.mp (Prod.mk.inj found).1
    cases answered
    obtain ⟨⟨place, row⟩, chosen, rfl⟩ := List.mem_map.mp (NameSet.mem_ofList.mp member)
    obtain ⟨listed, has⟩ := List.mem_filter.mp chosen
    exact ⟨place.uid, row, Table.get?_eq_some_iff.mpr listed, of_decide_eq_true has⟩
  purgeExpired _ :=
    .bind (onlyCounted_chains _) (.of_pure (onlyCounted_chains _) fun _ => rfl) fun _ =>
      Database.Store.transaction_fails _

/-! ### Every call -/

/-- A call records a change under a state that is refused after its transaction has ended. -/
def Database.Store.Strands (policy : Policy) (d : Database.Store) : Call → Prop
  | .recordChange draft => d.lockedOut = false ∧ ∃ state db,
      insertChange draft (policy.expiry draft.date) d.database = .ok (state, db) ∧ state < 0
  | _ => False

namespace Database.Store

variable {d after : Store} {policy : Policy} {draft : ChangeDraft} {e : StoreError}

/-- A change that was recorded has moved the heads, so the database is not as it was. -/
theorem not_sameButCounters_of_insertChange {expiresAt : Option Instant} {state : Int}
    {db : Database} (inserted : insertChange draft expiresAt d.database = .ok (state, db)) :
    ¬ SameButCounters d { d with database := db } := by
  intro same
  have heads : db.heads = d.database.heads := congrArg (·.database.heads) same
  obtain ⟨-, rfl⟩ := insertChange_ok inserted
  have advanced := congrArg (fun table => ((table.get? draft.account).getD ⟨0, 0⟩).latest) heads
  simp only [Table.get?_insert_self] at advanced
  exact absurd advanced (Int.ne_of_gt (Int.lt_succ _))

/-- Recording a change fails without half-done work exactly if its transaction fails. -/
theorem recordChange_failsCleanly_iff
    (fails : (Call.recordChange draft).run policy d = (.error e, after)) :
    (Call.recordChange draft).FailsCleanly d e after ↔
      ¬ Strands policy d (.recordChange draft) := by
  have fails : appendChange draft (policy.expiry draft.date) d = (.error e, after) := fails
  unfold appendChange at fails
  rcases done : transaction (fun store =>
      insertChange draft (policy.expiry draft.date) store.database) d with ⟨e' | state, middle⟩
  · cases (Step.bind_of_error done).symm.trans fails
    refine iff_of_true (.of_onlyCounted ?_) ?_
    · rw [transaction_error done]
      exact (onlyCounted_chains _).refl d
    · rintro ⟨unlocked, state, db, inserted, -⟩
      cases (transaction_of_ok unlocked inserted).symm.trans done
  · have fails := (Step.bind_of_ok done).symm.trans fails
    have unlocked := unlocked_of_transaction_ok done
    obtain ⟨db, inserted, rfl⟩ := transaction_ok done
    cases state with
    | ofNat given => cases fails
    | negSucc given =>
      cases fails
      refine iff_of_false (fun clean => ?_) fun whole =>
        whole ⟨unlocked, _, db, inserted, Int.negSucc_lt_zero given⟩
      exact not_sameButCounters_of_insertChange inserted (clean.kept (fun _ _ _ => nofun)).kept

end Database.Store

/-- A call that fails leaves no half-done work, whatever stands in the store: of a batch the rows of
the failed partitions are as they were; after any other failure everything is as it was, up to
counters of the mailboxes that the call reaches. On the database this holds of every call but the
recording of a change under a state that is negative. -/
theorem failures_leaveNothing (policy : Policy) (call : Call) :
    (∀ (m after : Memory.Store) (e : StoreError), call.run policy m = (.error e, after) →
      call.FailsCleanly m e after) ∧
    ∀ (d after : Database.Store) (e : StoreError), call.run policy d = (.error e, after) →
      (call.FailsCleanly d e after ↔ ¬ d.Strands policy call) := by
  constructor
  · intro m after e fails
    cases call with
    | recordChange draft =>
      exact .of_onlyCounted (.of_untouched (Memory.Store.write_fails _ _ _ _ fails))
    | _ => exact Call.failsCleanly policy (fun _ => nofun) fails
  · intro d after e fails
    cases call with
    | recordChange draft => exact Database.Store.recordChange_failsCleanly_iff fails
    | _ => exact iff_of_true (Call.failsCleanly policy (fun _ => nofun) fails) id

/-- A database with one row, whose date another program has overwritten. -/
def unreadableRow : Database.Store :=
  let d := (Service.append "inbox" { id := "m1" } .epoch (Database.Store.new "mail" 1)).2
  { d with database := { d.database with
    messages := d.database.messages.mapValues fun _ row =>
      { row with internalDate := .text "soon" } } }

/-- Marks the first message of a mailbox as seen. -/
def markFirstSeen : Call := .applyFlags "inbox" 1 ⟨{ seen := true }, .add⟩ none

/-- The message is missing in memory. In the database it is written and cannot be read back. -/
theorem failures_leaveNothing_unreadableRow :
    (∃ e after, markFirstSeen.run ⟨1, none⟩ (Memory.Store.new 1) = (.error e, after) ∧
      markFirstSeen.FailsCleanly (Memory.Store.new 1) e after) ∧
    ∃ e after, markFirstSeen.run ⟨1, none⟩ unreadableRow = (.error e, after) ∧
      markFirstSeen.FailsCleanly unreadableRow e after := by
  have inMemory : ∃ e after,
      markFirstSeen.run ⟨1, none⟩ (Memory.Store.new 1) = (.error e, after) :=
    Step.exists_error (by decide +kernel)
  have inDatabase : ∃ e after, markFirstSeen.run ⟨1, none⟩ unreadableRow = (.error e, after) :=
    Step.exists_error (by decide +kernel)
  obtain ⟨e, after, missing⟩ := inMemory
  obtain ⟨e', after', unread⟩ := inDatabase
  exact ⟨⟨e, after, missing, (failures_leaveNothing _ _).1 _ _ _ missing⟩,
    ⟨e', after', unread, ((failures_leaveNothing _ _).2 _ _ _ unread).mpr id⟩⟩

/-- A database in which another program has set the heads of an account below 0. -/
def headsBelowZero : Database.Store :=
  let d := Database.Store.new "mail" 1
  { d with database := { d.database with heads := d.database.heads.insert "bob" ⟨-5, -5⟩ } }

/-- Records a change of that account. -/
def recordBelowZero : Call := .recordChange { account := "bob", date := .epoch }

/-- The change is refused, but its record and the new heads stay. -/
theorem strandedChange_isKept :
    (headsBelowZero.database.changes.size, headsBelowZero.database.headsRow "bob")
        = (0, ⟨-5, -5⟩) ∧
      ∃ e after, recordBelowZero.run ⟨1, none⟩ headsBelowZero = (.error e, after) ∧
        (after.database.changes.size, after.database.headsRow "bob") = (1, ⟨-4, -4⟩) ∧
        ¬ recordBelowZero.FailsCleanly headsBelowZero e after := by
  have strands : headsBelowZero.Strands ⟨1, none⟩ recordBelowZero :=
    ⟨rfl, -4, _, rfl, by decide⟩
  have left : ((recordBelowZero.run ⟨1, none⟩ headsBelowZero).2.database.changes.size,
      (recordBelowZero.run ⟨1, none⟩ headsBelowZero).2.database.headsRow "bob")
        = (1, ⟨-4, -4⟩) := by decide +kernel
  have refused : ∃ e after, recordBelowZero.run ⟨1, none⟩ headsBelowZero = (.error e, after) :=
    Step.exists_error (by decide +kernel)
  obtain ⟨e, after, fails⟩ := refused
  rw [fails] at left
  refine ⟨by decide +kernel, e, after, fails, left, fun clean => ?_⟩
  exact (Database.Store.recordChange_failsCleanly_iff fails).mp clean strands

end Mailroom
