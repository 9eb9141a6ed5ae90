import Mailroom.Proofs.Numbers.Ledger
import Mailroom.Proofs.Revisions.Truthful
/-!
The numbers of mailboxes over a run.

In a run whose resets are given modification sequences in reach of their mailboxes, each mailbox
gives out the numbers 1, 2, 3, … in this order, whatever calls fail and whatever happens to the
store (`numbers_givenInOrder`). Every row bears numbers that were given out before, so a new row
never finds its place taken.
-/

namespace Mailroom

open Service Revised View Steadfast

variable {σ ι : Type}

/-- Rows bear numbers that were given out, the first of which is 1. -/
structure View.IsNumbered (v : View) : Prop where
  issued : v.IsIssued
  one_le : ∀ place r, v.revisionAt place = some r → 1 ≤ place.uid

theorem View.IsNumbered.of_grows {v v' : View} (numbered : v.IsNumbered) (grows : Grows v v')
    (issued : v'.IsIssued) : v'.IsNumbered where
  issued := issued
  one_le place r found := by
    cases Nat.eq_zero_or_pos place.uid with
    | inr positive => exact positive
    | inl zero =>
      have free : v.revisionAt place = none := by
        cases before : v.revisionAt place with
        | none => rfl
        | some r =>
        have positive := numbered.one_le place r before
        rw [zero] at positive
        cases positive
      rw [grows.gone place free (zero ▸ Nat.zero_le _)] at found
      cases found

/-! ### Answers -/

/-- The row number that an append to a mailbox answered. -/
def appendedUid? (mailbox : MailboxId) :
    ((call : Call) × Except StoreError call.Answer) → Option Uid
  | ⟨.append other _ _, .ok metadata⟩ =>
    if other = mailbox then some (metadata : Metadata).uid else none
  | _ => none

/-- The row numbers that appends to a mailbox answered. -/
def appendedUids (mailbox : MailboxId)
    (answers : List ((call : Call) × Except StoreError call.Answer)) : List Uid :=
  answers.filterMap (appendedUid? mailbox)

theorem pairwise_toList (uid? : Option Uid) : uid?.toList.Pairwise (· < ·) := by
  cases uid? with
  | none => exact .nil
  | some uid => exact List.pairwise_singleton _ uid

theorem appendedUids_cons (mailbox : MailboxId)
    (answer : (call : Call) × Except StoreError call.Answer)
    (answers : List ((call : Call) × Except StoreError call.Answer)) :
    appendedUids mailbox (answer :: answers)
      = (appendedUid? mailbox answer).toList ++ appendedUids mailbox answers := by
  unfold appendedUids
  rw [List.filterMap_cons]
  cases appendedUid? mailbox answer <;> rfl

/-- An append has answered with a number that was given out between two views, or was refused for
another reason than that its place was taken. -/
def AppendsBetween (v v' : View) : ((call : Call) × Except StoreError call.Answer) → Prop
  | ⟨.append mailbox _ _, .ok metadata⟩ =>
    v.lastUid mailbox < (metadata : Metadata).uid ∧ (metadata : Metadata).uid ≤ v'.lastUid mailbox
  | ⟨.append .., .error e⟩ => ∀ resource, e ≠ .alreadyExists resource
  | _ => True

theorem AppendsBetween.uid {v v' : View} {answer : (call : Call) × Except StoreError call.Answer}
    (between : AppendsBetween v v' answer) {mailbox : MailboxId} {uid : Uid}
    (appended : appendedUid? mailbox answer = some uid) :
    v.lastUid mailbox < uid ∧ uid ≤ v'.lastUid mailbox := by
  obtain ⟨call, answer⟩ := answer
  cases call with
  | append other new now =>
    cases answer with
    | error e => cases appended
    | ok metadata =>
      have appended :
          (if other = mailbox then some (metadata : Metadata).uid else none) = some uid := appended
      split at appended
      · rename_i same
        cases appended
        exact same ▸ between
      · cases appended
  | _ => cases appended

theorem AppendsBetween.free {v v' : View} {answer : (call : Call) × Except StoreError call.Answer}
    (between : AppendsBetween v v' answer) (mailbox : MailboxId) (new : NewMessage) (now : Instant)
    (resource : Resource) :
    answer ≠ ⟨.append mailbox new now, .error (.alreadyExists resource)⟩ := by
  rintro rfl
  exact between resource rfl

/-! ### Calls -/

section Calls

variable [Storage σ] [Sound σ] [Revised σ] [Steadfast σ] {store : σ}

/-- An append answers with a number greater than any before, and never finds its place taken. -/
theorem append_between [Truthful σ] (before : isKept store) (issued : (view store).IsIssued)
    (mailbox : MailboxId) (new : NewMessage) (now : Instant) :
    AppendsBetween (view store) (view (append mailbox new now store).2)
      ⟨.append mailbox new now, (append mailbox new now store).1⟩ := by
  rcases append_cases mailbox new now store with
    ⟨e, after, counted, failed⟩ | ⟨uid, middle, counted, ending⟩
  · obtain ⟨cause, rfl⟩ := nextUid_error mailbox store e (congrArg Prod.fst counted)
    rw [failed]
    exact nofun
  have sound := sound store before (nextUid_open mailbox store uid middle counted)
  obtain ⟨sound₁, counts⟩ := nextUid mailbox store sound
  rw [counted] at sound₁ counts
  rcases ending with ⟨e, after, stamped, failed⟩ | ⟨modSeq, last, stamped, ended⟩
  · obtain ⟨cause, rfl⟩ := nextModSeq_error mailbox middle e (congrArg Prod.fst stamped)
    rw [failed]
    exact nofun
  obtain ⟨sound₂, counts₁⟩ := nextModSeq mailbox middle sound₁
  rw [stamped] at sound₂ counts₁
  have free : (view last).revisionAt ⟨mailbox, uid⟩ = none := by
    rw [counts₁.stamps.2.2, counts.stamps.2.2]
    cases found : (view store).revisionAt ⟨mailbox, uid⟩ with
    | none => rfl
    | some r => exact absurd (issued _ r found).1 (Nat.not_le.mpr counts.le.1)
  have refused := Truthful.insert_free (new.row mailbox uid modSeq now) last sound₂ free
  rcases done : Storage.insert (new.row mailbox uid modSeq now) last with ⟨e | _, after⟩
  · rw [done] at refused
    rw [ended, done]
    exact fun resource same => refused resource (congrArg Except.error same)
  · rw [done] at ended
    rw [ended]
    exact append_uid_between sound ended

/-- What a call answers if it is an append. -/
theorem Service.Call.run_between [Truthful σ] (policy : Policy) (call : Call)
    (before : isKept store) (issued : (view store).IsIssued) :
    AppendsBetween (view store) (view (call.run policy store).2)
      ⟨call, (call.run policy store).1⟩ := by
  cases call with
  | append mailbox new now => exact append_between before issued mailbox new now
  | _ => trivial

variable [PureReads σ]

/-- A call keeps a store whose rows bear what was given out. -/
theorem Service.Call.run_numbered (policy : Policy) {call : Call} (before : isKept store)
    (numbered : (view store).IsNumbered) (given : call.IsGiven (view store)) :
    isKept (call.run policy store).2 ∧ (view (call.run policy store).2).IsNumbered ∧
      Grows (view store) (view (call.run policy store).2) := by
  have keeps : Writes σ (fun _ => True) fun store after => isKept store → isKept after :=
    writes_of_operations (keeps_chains isKept) kept
  have staysShut : Writes σ (fun _ => True) (StaysShut isOpen) :=
    writes_of_operations (staysShut_chains isOpen) shut
  refine ⟨Call.run_within (keeps_chains isKept) keeps policy call trivial store before, ?_⟩
  by_cases opened : isOpen store
  · obtain ⟨good, grows, -⟩ :=
      Call.run_forward_iff policy ⟨sound store before opened, numbered.issued⟩ given
    exact ⟨numbered.of_grows grows good.2, grows⟩
  · rw [Call.run_within (staysShut_chains isOpen) staysShut policy call trivial store opened]
    exact ⟨numbered, .refl _⟩

end Calls

/-! ### Runs -/

/-- Every reset is given a modification sequence that its mailbox has reached. -/
def ResetsInReach [Storage σ] [Sound σ] [Revised σ] [Exposed σ ι] :
    List (Happening ι) → σ → Prop
  | [], _ => True
  | .made policy call :: rest, store =>
    call.IsGiven (view store) ∧ ResetsInReach rest (call.run policy store).2
  | .suffered incident :: rest, store => ResetsInReach rest (befall incident store)

section Runs

variable [Storage σ] [Sound σ] [Revised σ] [Steadfast σ] [Exposed σ ι]

/-- The ledger of a run. -/
def ledgerOf (happenings : List (Happening ι)) (start : σ) : Ledger σ :=
  (Happening.runAll happenings ({ store := start } : Ledger σ)).2

/-- Over a run, the numbers of each mailbox are given out one after another. -/
structure GivesOutInOrder (happenings : List (Happening ι)) (start : σ) : Prop where
  /-- A service answers alike on a store and on its ledger, and leaves the same store. -/
  isLedger : Happening.runAll happenings start
    = ((Happening.runAll happenings ({ store := start } : Ledger σ)).1,
      (ledgerOf happenings start).store)
  /-- The row numbers that a mailbox gave out are 1, 2, 3, …, the last being that of its counter. -/
  uids : ∀ mailbox, (ledgerOf happenings start).uidsOf mailbox
    = List.range' 1 ((view (Happening.runAll happenings start).2).lastUid mailbox)
  /-- So are its modification sequences. -/
  modSeqs : ∀ mailbox, (ledgerOf happenings start).modSeqsOf mailbox
    = List.range' 1 ((view (Happening.runAll happenings start).2).highestModSeq mailbox)
  /-- The row numbers that appends to a mailbox answered go up. -/
  appended : ∀ mailbox,
    (appendedUids mailbox (Happening.runAll happenings start).1).Pairwise (· < ·)
  /-- Rows bear numbers that were given out. -/
  rows : ∀ place ∈ places (Happening.runAll happenings start).2,
    ∃ r, (view (Happening.runAll happenings start).2).revisionAt place = some r ∧
      1 ≤ place.uid ∧
      place.uid ≤ (view (Happening.runAll happenings start).2).lastUid place.mailbox ∧
      r.modSeq ≤ (view (Happening.runAll happenings start).2).highestModSeq place.mailbox
  /-- No append found its place taken. -/
  free : ∀ mailbox new now resource,
    ⟨.append mailbox new now, .error (.alreadyExists resource)⟩
      ∉ (Happening.runAll happenings start).1

variable [PureReads σ] [Truthful σ] [Withstands σ]

/-- What a run does to a store whose rows bear what was given out. -/
structure Numbers (store : σ)
    (outcome : List ((call : Call) × Except StoreError call.Answer) × σ) : Prop where
  kept : isKept outcome.2
  numbered : (view outcome.2).IsNumbered
  appended : ∀ mailbox, (appendedUids mailbox outcome.1).Pairwise (· < ·)
  later : ∀ mailbox, ∀ uid ∈ appendedUids mailbox outcome.1, (view store).lastUid mailbox < uid
  free : ∀ mailbox new now resource,
    ⟨.append mailbox new now, .error (.alreadyExists resource)⟩ ∉ outcome.1

theorem runAll_numbers {happenings : List (Happening ι)} {store : σ} (before : isKept store)
    (numbered : (view store).IsNumbered) (inReach : ResetsInReach happenings store) :
    Numbers store (Happening.runAll happenings store) := by
  induction happenings generalizing store with
  | nil => exact ⟨before, numbered, fun _ => .nil, fun _ _ => nofun, fun _ _ _ _ => nofun⟩
  | cons happening rest ih =>
    cases happening with
    | suffered incident =>
      obtain ⟨after, same⟩ := Withstands.befall incident store before
      have rests := ih after (same ▸ numbered) inReach
      exact ⟨rests.kept, rests.numbered, rests.appended, same ▸ rests.later, rests.free⟩
    | made policy call =>
      obtain ⟨after, numbered', grows⟩ := Call.run_numbered policy before numbered inReach.1
      have between := Call.run_between policy call before numbered.issued
      have rests := ih after numbered' inReach.2
      have first {mailbox : MailboxId} {uid : Uid}
          (member : uid ∈ (appendedUid? mailbox ⟨call, (call.run policy store).1⟩).toList) :
          (view store).lastUid mailbox < uid ∧
            uid ≤ (view (call.run policy store).2).lastUid mailbox :=
        between.uid (Option.mem_toList.mp member)
      refine ⟨rests.kept, rests.numbered, fun mailbox => ?_, fun mailbox uid member => ?_,
        fun mailbox new now resource member => ?_⟩
      · show (appendedUids mailbox (_ :: _)).Pairwise _
        rw [appendedUids_cons, List.pairwise_append]
        refine ⟨?_, rests.appended mailbox, fun uid member other member' => ?_⟩
        · exact pairwise_toList _
        · exact Nat.lt_of_le_of_lt (first member).2 (rests.later mailbox other member')
      · have member : uid ∈ appendedUids mailbox (_ :: _) := member
        rw [appendedUids_cons] at member
        rcases List.mem_append.mp member with isFirst | isLater
        · exact (first isFirst).1
        · exact Nat.lt_of_le_of_lt (grows.lastUid mailbox) (rests.later mailbox uid isLater)
      · rcases List.mem_cons.mp member with isFirst | isLater
        · exact between.free mailbox new now resource isFirst.symm
        · exact rests.free mailbox new now resource isLater

/-- A run of a store without rows gives out numbers in order. -/
theorem givesOutInOrder {happenings : List (Happening ι)} {start : σ} (before : isKept start)
    (empty : ∀ place, (view start).revisionAt place = none)
    (lastUid : ∀ mailbox, (view start).lastUid mailbox = 0)
    (highestModSeq : ∀ mailbox, (view start).highestModSeq mailbox = 0)
    (inReach : ResetsInReach happenings start) : GivesOutInOrder happenings start := by
  have numbered : (view start).IsNumbered := by
    refine ⟨fun place r found => ?_, fun place r found => ?_⟩ <;>
    · rw [empty] at found
      cases found
  have numbers := runAll_numbers before numbered inReach
  have isLedger := Ledger.runAll_projects happenings ({ store := start } : Ledger σ)
  have isTrue : Ledger.IsTrue ({ store := start } : Ledger σ) :=
    ⟨fun mailbox => by rw [lastUid]; rfl, fun mailbox => by rw [highestModSeq]; rfl⟩
  have after := (Ledger.runAll_keepsTrue happenings _ ⟨before, isTrue⟩).2
  have same : (Happening.runAll happenings start).2 = (ledgerOf happenings start).store :=
    congrArg Prod.snd isLedger
  refine ⟨isLedger, fun mailbox => ?_, fun mailbox => ?_, numbers.appended, fun place listed => ?_,
    numbers.free⟩
  · rw [same]
    exact after.uids mailbox
  · rw [same]
    exact after.modSeqs mailbox
  · obtain ⟨r, found⟩ := revisionAt_place _ numbers.kept place listed
    obtain ⟨uid, modSeq⟩ := numbers.numbered.issued place r found
    exact ⟨r, found, numbers.numbered.one_le place r found, uid, modSeq⟩

end Runs

/-! ### The two stores -/

/-- In memory and in the database, numbers are given out in order and used once, whatever calls are
made and fail, and whatever happens to the store. -/
theorem numbers_givenInOrder (path : String) (listBound : Nat) :
    (∀ happenings, ResetsInReach happenings (Memory.Store.new listBound) →
      GivesOutInOrder happenings (Memory.Store.new listBound)) ∧
    ∀ happenings, ResetsInReach happenings (Database.Store.new path listBound) →
      GivesOutInOrder happenings (Database.Store.new path listBound) := by
  refine ⟨fun happenings inReach => ?_, fun happenings inReach => ?_⟩
  · exact givesOutInOrder (Memory.Store.new_isSound listBound) (fun _ => rfl) (fun _ => rfl)
      (fun _ => rfl) inReach
  · exact givesOutInOrder ((Mirror.new_isSound path listBound).isKept rfl) (fun _ => rfl)
      (fun _ => rfl) (fun _ => rfl) inReach

/-- A run across incidents: the second append comes while the store is out of service, an update
finds no row, and the last append comes after the mailbox was emptied. -/
def acrossIncidents (out back : List ι) : List (Happening ι) :=
  let append : Happening ι := .made ⟨1, none⟩ (.append "inbox" { id := "m" } .epoch)
  [append] ++ out.map .suffered ++ [append] ++ back.map .suffered ++
    [.made ⟨1, none⟩ (.applyFlags "inbox" 7 ⟨{ seen := true }, .add⟩ none), append,
      .made ⟨1, none⟩ (.resetRecent "inbox" [1, 2] 2), .made ⟨1, none⟩ (.deleteMailbox "inbox"),
      append]

/-- In that run the appends that succeed answer 1, 2 and 3. -/
theorem numbers_givenInOrder_acrossIncidents :
    (ResetsInReach (acrossIncidents [.switch false] [.switch true]) (Memory.Store.new 1) ∧
      GivesOutInOrder (acrossIncidents [.switch false] [.switch true]) (Memory.Store.new 1) ∧
      appendedUids "inbox" (Happening.runAll (acrossIncidents [.switch false] [.switch true])
        (Memory.Store.new 1)).1 = [1, 2, 3]) ∧
    ResetsInReach (acrossIncidents [.lock true] [.lock false, .reopen])
        (Database.Store.new "mail" 1) ∧
      GivesOutInOrder (acrossIncidents [.lock true] [.lock false, .reopen])
        (Database.Store.new "mail" 1) ∧
      appendedUids "inbox" (Happening.runAll (acrossIncidents [.lock true] [.lock false, .reopen])
        (Database.Store.new "mail" 1)).1 = [1, 2, 3] := by
  have inMemory : ResetsInReach (acrossIncidents [.switch false] [.switch true])
      (Memory.Store.new 1) := by
    refine ⟨trivial, trivial, trivial, trivial, ?_, trivial, trivial, trivial⟩
    show (2 : Nat) ≤ _
    decide +kernel
  have inDatabase : ResetsInReach (acrossIncidents [.lock true] [.lock false, .reopen])
      (Database.Store.new "mail" 1) := by
    refine ⟨trivial, trivial, trivial, trivial, ?_, trivial, trivial, trivial⟩
    show (2 : Nat) ≤ _
    decide +kernel
  exact ⟨⟨inMemory, (numbers_givenInOrder "mail" 1).1 _ inMemory, by decide +kernel⟩, inDatabase,
    (numbers_givenInOrder "mail" 1).2 _ inDatabase, by decide +kernel⟩

end Mailroom
