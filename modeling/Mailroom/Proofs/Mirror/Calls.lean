import Mailroom.Proofs.Mirror.Batches
/-!
Calls on messages answer alike in memory and in the database.

`run_agrees` is the case of one call. It asks of the call what the database needs
(`Call.IsAdmissible`) and of the counters that they have not run over after it.
-/

namespace Mailroom.Mirror

open Memory Service

variable {α β : Type} {log : Log} {m : Memory.Store} {d : Database.Store}

/-! ### Allocations -/

/-- A counter that has not run over when it was counted up stood below the last number. -/
theorem lastUid_lt (mirrors : Mirrors True log m d) {mailbox : MailboxId}
    (fit : CountersFit ((Storage.nextUid mailbox : Step Memory.Store Uid) m).2) :
    (m.countersOf mailbox).lastUid < maxStored := by
  have counted : (Storage.nextUid mailbox : Step Memory.Store Uid) m = _ :=
    Step.write_of_ok mirrors.allocate_memory
  rw [counted] at fit
  have reached := (fit mailbox).1
  rwa [countersOf_insert, if_pos rfl] at reached

theorem highestModSeq_lt (mirrors : Mirrors True log m d) {mailbox : MailboxId}
    (fit : CountersFit ((Storage.nextModSeq mailbox : Step Memory.Store ModSeq) m).2) :
    (m.countersOf mailbox).highestModSeq < maxStored := by
  have counted : (Storage.nextModSeq mailbox : Step Memory.Store ModSeq) m = _ :=
    Step.write_of_ok mirrors.allocate_memory
  rw [counted] at fit
  have reached := (fit mailbox).2
  rwa [countersOf_insert, if_pos rfl] at reached

/-- A computation that starts with a row number agrees if the rest does. -/
theorem bind_nextUid (mirrors : Mirrors True log m d) {mailbox : MailboxId}
    {next : Uid → Step Memory.Store β} {next' : Uid → Step Database.Store β}
    (rises : ∀ uid, (next uid).Within CountersRise)
    (fit : CountersFit ((Storage.nextUid mailbox >>= next : Step Memory.Store β) m).2)
    (nexts : ∀ uid m' d', uid ≤ maxStored → m'.listBound = m.listBound → Mirrors True log m' d' →
      CountersFit (next uid m').2 → Agrees True log (next uid) (next' uid) m' d') :
    Agrees True log (Storage.nextUid mailbox >>= next) (Storage.nextUid mailbox >>= next') m d := by
  have counted : (Storage.nextUid mailbox : Step Memory.Store Uid) m = _ :=
    Step.write_of_ok mirrors.allocate_memory
  rw [Step.bind_of_ok counted] at fit
  have below := lastUid_lt mirrors (by rw [counted]; exact fit.of_rise (rises _ _))
  refine (mirrors.nextUid_agrees below).bind fun uid m' d' left _ after => ?_
  rw [counted] at left
  cases left
  exact nexts _ _ _ below rfl after fit

/-- A computation that starts with a modification sequence agrees if the rest does. -/
theorem bind_nextModSeq (mirrors : Mirrors True log m d) {mailbox : MailboxId}
    {next : ModSeq → Step Memory.Store β} {next' : ModSeq → Step Database.Store β}
    (rises : ∀ modSeq, (next modSeq).Within CountersRise)
    (fit : CountersFit ((Storage.nextModSeq mailbox >>= next : Step Memory.Store β) m).2)
    (nexts : ∀ modSeq m' d', modSeq ≤ maxStored → m'.listBound = m.listBound →
      Mirrors True log m' d' → CountersFit (next modSeq m').2 →
      Agrees True log (next modSeq) (next' modSeq) m' d') :
    Agrees True log (Storage.nextModSeq mailbox >>= next)
      (Storage.nextModSeq mailbox >>= next') m d := by
  have counted : (Storage.nextModSeq mailbox : Step Memory.Store ModSeq) m = _ :=
    Step.write_of_ok mirrors.allocate_memory
  rw [Step.bind_of_ok counted] at fit
  have below :=
    highestModSeq_lt mirrors (by rw [counted]; exact fit.of_rise (rises _ _))
  refine (mirrors.nextModSeq_agrees below).bind fun modSeq m' d' left _ after => ?_
  rw [counted] at left
  cases left
  exact nexts _ _ _ below rfl after fit

/-! ### Writing -/

theorem append_agrees (mirrors : Mirrors True log m d) {mailbox : MailboxId} {new : NewMessage}
    {now : Instant} (clock : now.IsPlain) (date : ∀ t ∈ new.internalDate, t.IsPlain)
    (fit : CountersFit (append mailbox new now m).2) :
    Agrees True log (append mailbox new now) (append mailbox new now) m d := by
  have inserts (uid : Uid) (modSeq : ModSeq) : Step.Within CountersRise (do
      Storage.insert (σ := Memory.Store) (new.row mailbox uid modSeq now)
      return (new.row mailbox uid modSeq now).metadata) :=
    .bind countersRise_chains (insert_rises _) fun _ => .pure countersRise_chains _
  refine bind_nextUid mirrors (fun uid => .bind countersRise_chains
    (nextModSeq_rises mailbox) fun modSeq => inserts uid modSeq) fit ?_
  intro uid m' d' _ _ mirrors fit
  refine bind_nextModSeq mirrors (inserts uid) fit ?_
  intro modSeq m' d' fits _ mirrors _
  have internal : (new.internalDate.getD now).IsPlain := by
    cases given : new.internalDate with
    | none => exact clock
    | some t => exact date t given
  have years : (new.row mailbox uid modSeq now).HasPlainDates :=
    ⟨internal.1, fun _ saved => Option.some.inj saved ▸ clock.1⟩
  have seconds : (new.row mailbox uid modSeq now).HasPlainSeconds :=
    ⟨internal.2, fun _ saved => Option.some.inj saved ▸ clock.2⟩
  exact (mirrors.insert_agrees fits seconds fun _ => years).bind
    fun _ _ _ _ _ after => .pure after _

theorem applyFlags_agrees (mirrors : Mirrors True log m d) {mailbox : MailboxId} {uid : Uid}
    {update : FlagUpdate} {expected : Option ModSeq}
    (fit : CountersFit (applyFlags mailbox uid update expected m).2) :
    Agrees True log (applyFlags mailbox uid update expected)
      (applyFlags mailbox uid update expected) m d := by
  refine bind_nextModSeq mirrors
    (fun modSeq => updateFlags_rises mailbox uid _ modSeq expected) fit ?_
  intro modSeq m' d' _ _ mirrors _
  exact mirrors.updateFlags_agrees fun row found =>
    mirrors.readable trivial row (Table.mem_values_iff.mpr ⟨_, found⟩)

theorem resetRecent_agrees (mirrors : Mirrors True log m d) {mailbox : MailboxId}
    {uids : List Uid} {modSeq : ModSeq}
    (few : min (sortedUids uids).length (max m.listBound 1) + 3 ≤ maxVariables) :
    Agrees True log (resetRecent mailbox uids modSeq) (resetRecent mailbox uids modSeq) m d := by
  unfold resetRecent
  split
  · exact .fail mirrors _
  · rename_i fits
    refine partitioned_agrees mirrors fun part within short m d mirrors => ?_
    have length := within.length_le
    exact mirrors.resetRecent_agrees mailbox (Nat.not_lt.mp fits)
      ((sortedUids_ascending uids).sublist within) (by omega) (mirrors.readable trivial)

theorem deleteByUids_agrees (mirrors : Mirrors True log m d) {mailbox : MailboxId}
    {uids : List Uid} (few : min (sortedUids uids).length (max m.listBound 1) + 1 ≤ maxVariables)
    (fit : CountersFit (deleteByUids mailbox uids m).2) :
    Agrees True log (deleteByUids mailbox uids) (deleteByUids mailbox uids) m d := by
  unfold deleteByUids at fit ⊢
  split
  · exact .pure mirrors _
  · rename_i nonempty
    rw [if_neg nonempty] at fit
    refine bind_nextModSeq mirrors (fun _ => ?_) fit ?_
    · exact fun store => runPartitioned_within countersRise_chains (fun part within =>
        writes_countersRise.deleteBatch mailbox part
          ((sortedUids_ascending uids).sublist within)) store
    · intro _ m' d' _ bound mirrors _
      refine partitioned_agrees mirrors fun part within short m d mirrors => ?_
      have length := within.length_le
      rw [bound] at short
      exact mirrors.deleteBatch_agrees mailbox ((sortedUids_ascending uids).sublist within)
        (by omega) (mirrors.readable trivial)

theorem bumpEach_agrees (mirrors : Mirrors True log m d) {mailboxes : List MailboxId}
    (fit : CountersFit (bumpEach mailboxes m).2) :
    Agrees True log (bumpEach mailboxes) (bumpEach mailboxes) m d := by
  induction mailboxes generalizing m d with
  | nil => exact .pure mirrors _
  | cons mailbox rest ih =>
    refine bind_nextModSeq mirrors
      (fun _ => bumpEach_within countersRise_chains writes_countersRise.nextModSeq rest) fit ?_
    intro _ m' d' _ _ mirrors fit
    exact ih mirrors fit

/-- What was counted up before the rows are removed has not run over if nothing has afterwards. -/
theorem countersFit_bumpEach {id : MessageId} {mailboxes : List MailboxId}
    (fit : CountersFit ((bumpEach mailboxes >>= fun _ => Storage.deleteMessage id :
      Step Memory.Store _) m).2) : CountersFit (bumpEach mailboxes m).2 := by
  rcases bumped : bumpEach mailboxes m with ⟨_ | _, after⟩
  · rwa [Step.bind_of_error bumped] at fit
  · rw [Step.bind_of_ok bumped] at fit
    exact fit.of_rise (writes_countersRise.deleteMessage id after)

theorem deleteMessage_agrees (mirrors : Mirrors True log m d) {id : MessageId}
    (fit : CountersFit (deleteMessage id m).2) :
    Agrees True log (deleteMessage id) (deleteMessage id) m d := by
  refine Agrees.bind (.read mirrors (mirrors.findMailboxes_eq id)) ?_
  intro mailboxes m' d' left right mirrors
  have found : (Storage.findMailboxes id : Step Memory.Store _) m = (.ok mailboxes, m') := left
  have same : m' = m := (congrArg Prod.snd left).symm
  have same' : d' = d := (congrArg Prod.snd right).symm
  subst same same'
  unfold deleteMessage at fit
  rw [Step.bind_of_ok found] at fit
  exact (bumpEach_agrees mirrors (countersFit_bumpEach fit)).bind fun _ _ _ _ _ mirrors =>
    mirrors.deleteMessage_agrees id

/-! ### Reading -/

theorem findByUids_agrees (mirrors : Mirrors True log m d) {mailbox : MailboxId}
    {uids : List Uid} {fetch : Fetch}
    (few : min (sortedUids uids).length (max m.listBound 1) + 1 ≤ maxVariables) :
    Agrees True log (findByUids mailbox uids fetch) (findByUids mailbox uids fetch) m d := by
  refine partitioned_agrees mirrors fun part within short m d mirrors => ?_
  have length := within.length_le
  have stored : (Database.Store.storedUids part).length ≤ part.length := List.length_filter_le _ _
  exact .read mirrors (mirrors.fetchBatch_eq (mirrors.readable trivial) (by omega) fetch)

/-! ### Every call -/

/-- A call on messages that a database can carry out: its dates are read back as they are, and its
lists have no more entries than a statement takes beside its other variables. -/
def Call.IsAdmissible (m : Memory.Store) : Call → Prop
  | .append _ new now => now.IsPlain ∧ ∀ date ∈ new.internalDate, date.IsPlain
  | .resetRecent _ uids _ => min (sortedUids uids).length (max m.listBound 1) + 3 ≤ maxVariables
  | .deleteByUids _ uids | .findByUids _ uids _ =>
    min (sortedUids uids).length (max m.listBound 1) + 1 ≤ maxVariables
  | .deleteMailbox mailbox =>
    (NameSet.ofList ((m.mailboxRows mailbox).map Message.messageId)).size ≤ maxVariables
  | .recordChange _ | .allChanges .. | .changesSince .. | .changesSinceLimited ..
  | .latestState _ | .latestStateNotDelegated _ | .purgeExpired _ => False
  | _ => True

/-- A call on messages answers alike in memory and in the database, and leaves them related. -/
theorem run_agrees (mirrors : Mirrors True log m d) (policy : Policy) {call : Call}
    (admissible : Call.IsAdmissible m call) (fit : CountersFit (call.run policy m).2) :
    Agrees True log (call.run policy) (call.run policy) m d := by
  have readable := mirrors.readable trivial
  cases call with
  | nextUid mailbox => exact mirrors.nextUid_agrees (lastUid_lt mirrors fit)
  | nextModSeq mailbox => exact mirrors.nextModSeq_agrees (highestModSeq_lt mirrors fit)
  | highestModSeq mailbox => exact .read mirrors (mirrors.highestModSeq_eq trivial mailbox)
  | append mailbox new now => exact append_agrees mirrors admissible.1 admissible.2 fit
  | applyFlags mailbox uid update expected => exact applyFlags_agrees mirrors fit
  | resetRecent mailbox uids modSeq => exact resetRecent_agrees mirrors admissible
  | deleteByUids mailbox uids => exact deleteByUids_agrees mirrors admissible fit
  | deleteMailbox mailbox => exact mirrors.deleteMailbox_agrees mailbox admissible
  | deleteMessage id => exact deleteMessage_agrees mirrors fit
  | find mailbox uid fetch => exact .read mirrors (mirrors.find_eq readable mailbox uid fetch)
  | findByUids mailbox uids fetch => exact findByUids_agrees mirrors admissible
  | findMailboxes id => exact .read mirrors (mirrors.findMailboxes_eq id)
  | scan request fetch =>
    exact drained_agrees mirrors trivial rfl rfl (fun _ _ => rfl)
      fun _ _ => Prod.ext (mirrors.fetchPage_eq readable _ fetch) rfl
  | scanUids request =>
    exact drained_agrees mirrors trivial rfl rfl (fun _ _ => rfl)
      fun _ _ => Prod.ext (mirrors.fetchUidPage_eq _) rfl
  | counts mailbox => exact .read mirrors (mirrors.counts_eq mailbox)
  | firstUnseen mailbox => exact .read mirrors (mirrors.firstUnseen_eq mailbox)
  | keywords mailbox => exact .read mirrors (mirrors.keywords_eq mailbox)
  | recordChange | allChanges | changesSince | changesSinceLimited | latestState
  | latestStateNotDelegated | purgeExpired => exact admissible.elim

end Mailroom.Mirror
