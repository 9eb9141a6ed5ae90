import Mailroom.Proofs.Incidents
import Mailroom.Proofs.Projection
/-!
What a store has given out.

Calls use up numbers that no answer tells of: those of a write that failed later on, and the
modification sequences of removals. A `Ledger` is a store beside which every number that it gives
out is written down. A service cannot tell the two apart (`Ledger.projection`). Whatever calls are
made and whatever happens to the store, the ledger stays true: what it holds of a mailbox are the
numbers from 1 to the last one (`Ledger.runAll_keepsTrue`).
-/

namespace Mailroom

/-- A store beside the numbers that it has given out, each with its mailbox, in order. -/
structure Ledger (σ : Type) where
  store : σ
  uids : List (MailboxId × Uid) := []
  modSeqs : List (MailboxId × ModSeq) := []

namespace Ledger

variable {σ ι α : Type}

/-- What is written down of a mailbox. -/
def numbersOf (mailbox : MailboxId) (entries : List (MailboxId × Nat)) : List Nat :=
  (entries.filter (·.1 = mailbox)).map Prod.snd

theorem numbersOf_append (mailbox other : MailboxId) (entries : List (MailboxId × Nat)) (n : Nat) :
    numbersOf mailbox (entries ++ [(other, n)])
      = numbersOf mailbox entries ++ if mailbox = other then [n] else [] := by
  unfold numbersOf
  by_cases same : mailbox = other
  · simp [same]
  · simp [same, Ne.symm same]

/-- The row numbers of a mailbox that were given out. -/
def uidsOf (l : Ledger σ) (mailbox : MailboxId) : List Uid := numbersOf mailbox l.uids

/-- The modification sequences of a mailbox that were given out. -/
def modSeqsOf (l : Ledger σ) (mailbox : MailboxId) : List ModSeq := numbersOf mailbox l.modSeqs

/-- Does to the store what a step does. -/
def lift (step : Step σ α) : Step (Ledger σ) α := fun l =>
  let (answer, store) := step l.store
  (answer, { l with store })

/-- Does to the store what a step does, and makes a note of its answer. -/
def noting (note : α → Ledger σ → Ledger σ) (step : Step σ α) : Step (Ledger σ) α := fun l =>
  match step l.store with
  | (.ok a, store) => (.ok a, note a { l with store })
  | (.error e, store) => (.error e, { l with store })

/-- A row number was given out. -/
def noteUid (mailbox : MailboxId) (uid : Uid) (l : Ledger σ) : Ledger σ :=
  { l with uids := l.uids ++ [(mailbox, uid)] }

/-- A modification sequence was given out. -/
def noteModSeq (mailbox : MailboxId) (modSeq : ModSeq) (l : Ledger σ) : Ledger σ :=
  { l with modSeqs := l.modSeqs ++ [(mailbox, modSeq)] }

instance [Storage σ] : Storage (Ledger σ) where
  nextUid mailbox := noting (noteUid mailbox) (Storage.nextUid mailbox)
  nextModSeq mailbox := noting (noteModSeq mailbox) (Storage.nextModSeq mailbox)
  lastUid mailbox := lift (Storage.lastUid mailbox)
  highestModSeq mailbox := lift (Storage.highestModSeq mailbox)
  insert message := lift (Storage.insert message)
  find mailbox uid fetch := lift (Storage.find mailbox uid fetch)
  fetchPage request fetch := lift (Storage.fetchPage request fetch)
  fetchUidPage request := lift (Storage.fetchUidPage request)
  fetchBatch mailbox uids fetch := lift (Storage.fetchBatch mailbox uids fetch)
  updateFlags mailbox uid edit modSeq expected :=
    lift (Storage.updateFlags mailbox uid edit modSeq expected)
  resetRecent mailbox uids modSeq := lift (Storage.resetRecent mailbox uids modSeq)
  deleteBatch mailbox uids := lift (Storage.deleteBatch mailbox uids)
  deleteMailbox mailbox := lift (Storage.deleteMailbox mailbox)
  deleteMessage id := lift (Storage.deleteMessage id)
  findMailboxes id := lift (Storage.findMailboxes id)
  counts mailbox := lift (Storage.counts mailbox)
  firstUnseen mailbox := lift (Storage.firstUnseen mailbox)
  keywords mailbox := lift (Storage.keywords mailbox)
  listBound l := Storage.listBound l.store
  appendChange draft expiresAt := lift (Storage.appendChange draft expiresAt)
  changesPage request := lift (Storage.changesPage request)
  heads account := lift (Storage.heads account)
  purgeExpired now := lift (Storage.purgeExpired now)
  health l := Storage.health l.store
  extent l := Storage.extent l.store

theorem noting_of_ok {note : α → Ledger σ → Ledger σ} {step : Step σ α} {l : Ledger σ} {a : α}
    {store : σ} (done : step l.store = (.ok a, store)) :
    noting note step l = (.ok a, note a { l with store }) := by
  unfold noting
  rw [done]

theorem noting_of_error {note : α → Ledger σ → Ledger σ} {step : Step σ α} {l : Ledger σ}
    {e : StoreError} {store : σ} (fails : step l.store = (.error e, store)) :
    noting note step l = (.error e, { l with store }) := by
  unfold noting
  rw [fails]

/-- An incident happens to the store. -/
instance [Exposed σ ι] : Exposed (Ledger σ) ι where
  befall incident l := { l with store := befall incident l.store }

/-! ### The store of a ledger -/

theorem lift_projects (step : Step σ α) : Step.Projects store (lift step) step := fun _ => rfl

theorem noting_projects (note : α → Ledger σ → Ledger σ)
    (same : ∀ a l, (note a l).store = l.store) (step : Step σ α) :
    Step.Projects store (noting note step) step := by
  intro l
  rcases done : step l.store with ⟨_ | a, after⟩
  · rw [noting_of_error done]
  · rw [noting_of_ok done, same]

/-- A service does to the store of a ledger what it does to the ledger. -/
theorem projection [Storage σ] : Projection (store : Ledger σ → σ) where
  nextUid mailbox := noting_projects (noteUid mailbox) (fun _ _ => rfl) (Storage.nextUid mailbox)
  nextModSeq mailbox :=
    noting_projects (noteModSeq mailbox) (fun _ _ => rfl) (Storage.nextModSeq mailbox)
  highestModSeq _ := lift_projects _
  insert _ := lift_projects _
  find _ _ _ := lift_projects _
  fetchPage _ _ := lift_projects _
  fetchUidPage _ := lift_projects _
  fetchBatch _ _ _ := lift_projects _
  updateFlags _ _ _ _ _ := lift_projects _
  resetRecent _ _ _ := lift_projects _
  deleteBatch _ _ := lift_projects _
  deleteMailbox _ := lift_projects _
  deleteMessage _ := lift_projects _
  findMailboxes _ := lift_projects _
  counts _ := lift_projects _
  firstUnseen _ := lift_projects _
  keywords _ := lift_projects _
  listBound _ := rfl
  appendChange _ _ := lift_projects _
  changesPage _ := lift_projects _
  heads _ := lift_projects _
  purgeExpired _ := lift_projects _
  extent _ := rfl

/-- The store of a ledger goes through what the ledger goes through. -/
theorem runAll_projects [Storage σ] [Exposed σ ι] (happenings : List (Happening ι))
    (l : Ledger σ) : Happening.runAll happenings l.store
      = ((Happening.runAll happenings l).1, (Happening.runAll happenings l).2.store) := by
  induction happenings generalizing l with
  | nil => rfl
  | cons happening rest ih =>
    cases happening with
    | suffered incident => exact ih (befall incident l)
    | made policy call =>
      have first := Service.Call.run_projects projection policy call l
      unfold Happening.runAll
      rw [first]
      simp only [ih]

theorem lift_pure {step : Step σ α} (pure : ∀ store, (step store).2 = store) (l : Ledger σ) :
    (lift step l).2 = l := by
  show { l with store := (step l.store).2 } = l
  rw [pure]

instance [Storage σ] [PureReads σ] : PureReads (Ledger σ) where
  find _ _ _ := lift_pure (PureReads.find _ _ _)
  fetchPage _ _ := lift_pure (PureReads.fetchPage _ _)
  fetchUidPage _ := lift_pure (PureReads.fetchUidPage _)
  fetchBatch _ _ _ := lift_pure (PureReads.fetchBatch _ _ _)
  highestModSeq _ := lift_pure (PureReads.highestModSeq _)
  findMailboxes _ := lift_pure (PureReads.findMailboxes _)
  counts _ := lift_pure (PureReads.counts _)
  firstUnseen _ := lift_pure (PureReads.firstUnseen _)
  keywords _ := lift_pure (PureReads.keywords _)
  changesPage _ := lift_pure (PureReads.changesPage _)
  heads _ := lift_pure (PureReads.heads _)

/-! ### True ledgers -/

section True

open View Revised Steadfast

variable [Storage σ] [Sound σ] [Revised σ]

/-- What a ledger holds of each mailbox are the numbers from 1 to the last one given out. -/
structure IsTrue (l : Ledger σ) : Prop where
  uids : ∀ mailbox, l.uidsOf mailbox = List.range' 1 ((view l.store).lastUid mailbox)
  modSeqs : ∀ mailbox, l.modSeqsOf mailbox = List.range' 1 ((view l.store).highestModSeq mailbox)

/-- A ledger stays true as long as neither its entries nor the counters change. -/
theorem IsTrue.of_eq {l after : Ledger σ} (isTrue : l.IsTrue) (uids : after.uids = l.uids)
    (modSeqs : after.modSeqs = l.modSeqs)
    (lastUid : (view after.store).lastUid = (view l.store).lastUid)
    (highestModSeq : (view after.store).highestModSeq = (view l.store).highestModSeq) :
    after.IsTrue where
  uids mailbox := by
    rw [lastUid, ← isTrue.uids]
    exact congrArg (numbersOf mailbox) uids
  modSeqs mailbox := by
    rw [highestModSeq, ← isTrue.modSeqs]
    exact congrArg (numbersOf mailbox) modSeqs

theorem IsTrue.of_view {l after : Ledger σ} (isTrue : l.IsTrue) (uids : after.uids = l.uids)
    (modSeqs : after.modSeqs = l.modSeqs) (same : view after.store = view l.store) :
    after.IsTrue :=
  isTrue.of_eq uids modSeqs (congrArg View.lastUid same) (congrArg View.highestModSeq same)

/-- The numbers of a mailbox after one was written down. -/
theorem numbersOf_next {mailbox other : MailboxId} {entries : List (MailboxId × Nat)}
    {last : MailboxId → Nat} (isTrue : numbersOf other entries = List.range' 1 (last other)) :
    numbersOf other (entries ++ [(mailbox, last mailbox + 1)])
      = List.range' 1 (if other = mailbox then last mailbox + 1 else last other) := by
  rw [numbersOf_append, isTrue]
  split
  · rename_i same
    rw [same, List.range'_1_concat, Nat.add_comm 1]
  · exact List.append_nil _

variable [Steadfast σ]

/-- A ledger of a store that is kept stays true. -/
def KeepsTrue (l after : Ledger σ) : Prop :=
  isKept l.store ∧ l.IsTrue → isKept after.store ∧ after.IsTrue

theorem keepsTrue_chains : Chains (@KeepsTrue σ _ _ _ _) where
  refl _ := id
  trans first second := second ∘ first

/-- A step of whose answer a note is made keeps a ledger true, if the note is what it counts up. -/
theorem noting_keepsTrue {step : Step σ α} {note : α → Ledger σ → Ledger σ}
    (same : ∀ a l, (note a l).store = l.store)
    (kept : step.Within fun store after => isKept store → isKept after)
    (refused : ∀ {store e after}, isKept store → step store = (.error e, after) →
      view after = view store)
    (counted : ∀ {l : Ledger σ} {a after}, isKept l.store → l.IsTrue →
      step l.store = (.ok a, after) → (note a { l with store := after }).IsTrue) :
    (noting note step).Within KeepsTrue := by
  rintro l ⟨before, isTrue⟩
  have after := kept l.store before
  rcases done : step l.store with ⟨e | a, store⟩
  · rw [done] at after
    rw [noting_of_error done]
    exact ⟨after, isTrue.of_view rfl rfl (refused before done)⟩
  · rw [done] at after
    rw [noting_of_ok done]
    exact ⟨(same a _).symm ▸ after, counted before isTrue done⟩

theorem nextUid_keepsTrue (mailbox : MailboxId) :
    (Storage.nextUid mailbox : Step (Ledger σ) Uid).Within KeepsTrue := by
  refine noting_keepsTrue (fun _ _ => rfl) (kept.nextUid mailbox) (fun before done => ?_)
    (fun before isTrue done => ?_)
  · have counts := nextUid_counts mailbox before
    rw [done] at counts
    exact counts
  · have counts := nextUid_counts mailbox before
    rw [done] at counts
    obtain ⟨rfl, same⟩ := counts
    refine ⟨fun other => ?_, fun other => ?_⟩
    · refine (numbersOf_next (isTrue.uids other)).trans ?_
      exact congrArg (List.range' 1) (congrFun (congrArg View.lastUid same) other).symm
    · refine (isTrue.modSeqs other).trans ?_
      exact congrArg (List.range' 1) (congrFun (congrArg View.highestModSeq same) other).symm

theorem nextModSeq_keepsTrue (mailbox : MailboxId) :
    (Storage.nextModSeq mailbox : Step (Ledger σ) ModSeq).Within KeepsTrue := by
  refine noting_keepsTrue (fun _ _ => rfl) (kept.nextModSeq mailbox) (fun before done => ?_)
    (fun before isTrue done => ?_)
  · have counts := nextModSeq_counts mailbox before
    rw [done] at counts
    exact counts
  · have counts := nextModSeq_counts mailbox before
    rw [done] at counts
    obtain ⟨rfl, same⟩ := counts
    refine ⟨fun other => ?_, fun other => ?_⟩
    · refine (isTrue.uids other).trans ?_
      exact congrArg (List.range' 1) (congrFun (congrArg View.lastUid same) other).symm
    · refine (numbersOf_next (isTrue.modSeqs other)).trans ?_
      exact congrArg (List.range' 1) (congrFun (congrArg View.highestModSeq same) other).symm

/-- A step that counts nothing up keeps a ledger true. -/
theorem lift_keepsTrue {step : Step σ α} {law : View → Except StoreError α → View → Prop}
    (kept : step.Within fun store after => isKept store → isKept after)
    (shut : step.Within (StaysShut isOpen)) (obeys : step.Obeys view law)
    (same : ∀ {v answer v'}, law v answer v' →
      v'.lastUid = v.lastUid ∧ v'.highestModSeq = v.highestModSeq) :
    (lift step).Within KeepsTrue := by
  rintro l ⟨before, isTrue⟩
  refine ⟨kept l.store before, ?_⟩
  by_cases opened : isOpen l.store
  · obtain ⟨lastUid, highestModSeq⟩ := same (obeys l.store (sound l.store before opened)).2
    exact isTrue.of_eq rfl rfl lastUid highestModSeq
  · have unchanged : view (step l.store).2 = view l.store :=
      congrArg view (shut l.store opened)
    exact isTrue.of_view rfl rfl unchanged

/-- A step that removes rows counts nothing up. -/
theorem drops_keepTrue {step : Step σ α}
    (kept : step.Within fun store after => isKept store → isKept after)
    (shut : step.Within (StaysShut isOpen)) (drops : step.Obeys view fun v _ => Drops v) :
    (lift step).Within KeepsTrue :=
  lift_keepsTrue kept shut drops fun drops => ⟨drops.lastUid, drops.highestModSeq⟩

/-- Every operation keeps a ledger true. -/
theorem operations_keepTrue : Operations (Ledger σ) KeepsTrue where
  nextUid := nextUid_keepsTrue
  nextModSeq := nextModSeq_keepsTrue
  insert message :=
    lift_keepsTrue (kept.insert message) (shut.insert message) (insert message) <| by
      rintro v _ v' (rfl | ⟨-, flags, rfl⟩) <;> exact ⟨rfl, rfl⟩
  updateFlags mailbox uid edit modSeq expected :=
    lift_keepsTrue (kept.updateFlags mailbox uid edit modSeq expected)
      (shut.updateFlags mailbox uid edit modSeq expected)
      (updateFlags mailbox uid edit modSeq expected) <| by
        rintro v _ v' (rfl | ⟨-, flags, rfl⟩) <;> exact ⟨rfl, rfl⟩
  resetRecent mailbox uids modSeq fits ascending :=
    lift_keepsTrue (kept.resetRecent mailbox uids modSeq fits ascending)
      (shut.resetRecent mailbox uids modSeq fits ascending)
      (resetRecent mailbox uids modSeq fits ascending)
      fun resets => ⟨resets.lastUid, resets.highestModSeq⟩
  deleteBatch mailbox uids ascending := drops_keepTrue (kept.deleteBatch mailbox uids ascending)
    (shut.deleteBatch mailbox uids ascending) (deleteBatch mailbox uids ascending)
  deleteMailbox mailbox := drops_keepTrue (kept.deleteMailbox mailbox)
    (shut.deleteMailbox mailbox) (deleteMailbox mailbox)
  deleteMessage id := drops_keepTrue (kept.deleteMessage id) (shut.deleteMessage id)
    (deleteMessage id)
  appendChange draft expiresAt := lift_keepsTrue (kept.appendChange draft expiresAt)
    (shut.appendChange draft expiresAt) (appendChange draft expiresAt) <| by
      rintro v _ v' rfl
      exact ⟨rfl, rfl⟩
  purgeExpired now := lift_keepsTrue (kept.purgeExpired now) (shut.purgeExpired now)
    (purgeExpired now) <| by
      rintro v _ v' rfl
      exact ⟨rfl, rfl⟩

variable [PureReads σ] [Exposed σ ι] [Withstands σ]

/-- Whatever calls are made and whatever happens to its store, a ledger stays true. -/
theorem runAll_keepsTrue (happenings : List (Happening ι)) (l : Ledger σ) :
    KeepsTrue l (Happening.runAll happenings l).2 := by
  induction happenings generalizing l with
  | nil => exact id
  | cons happening rest ih =>
    cases happening with
    | made policy call =>
      refine keepsTrue_chains.trans ?_ (ih _)
      have writes : Writes (Ledger σ) (fun _ => True) KeepsTrue :=
        Service.writes_of_operations keepsTrue_chains operations_keepTrue
      exact Service.Call.run_within keepsTrue_chains writes policy call trivial l
    | suffered incident =>
      refine keepsTrue_chains.trans ?_ (ih (befall incident l))
      rintro ⟨before, isTrue⟩
      obtain ⟨after, same⟩ := Withstands.befall incident l.store before
      exact ⟨after, isTrue.of_view rfl rfl same⟩

end True

end Ledger

end Mailroom
