import Mailroom.Proofs.Contents.Stores
import Mailroom.Proofs.Memory.Places
import Mathlib.Data.List.Induction
/-!
Which append a row was made by.

The message of a row and its size are what an append was given (`NewMessage.origin`), and no write
changes them. `Traced` says so for each operation of a store, and `Call.run_traces` for each call: a
row that is there afterwards was there before with the same origin, or the call is the append that
answered its number. So after any calls on an empty store every row was made by one of them
(`run_made`), by just one of them (`Made.unique`), and no row has the number 0 (`run_uid_pos`).
-/

namespace Mailroom

open Service Revised

variable {σ α : Type}

/-- What a row was made from: a message, and so many octets. -/
structure Origin where
  id : MessageId
  size : Nat
deriving DecidableEq

def Message.origin (row : Message) : Origin := ⟨row.messageId, row.size⟩

/-- The origin of the row of a new message. -/
def Service.NewMessage.origin (new : NewMessage) : Origin := ⟨new.id, new.content.length⟩

/-- No rows are there but those that were there. -/
def Fades (before after : Place → Option Origin) : Prop :=
  ∀ place origin, after place = some origin → before place = some origin

/-- No rows are there but those that were there, and that of a message if it was inserted. -/
def Adds (message : Message) (before : Place → Option Origin) (answer : Except StoreError Unit)
    (after : Place → Option Origin) : Prop :=
  ∀ place origin, after place = some origin →
    before place = some origin ∨ answer = .ok () ∧ place = message.place ∧ origin = message.origin

theorem Fades.refl (origins : Place → Option Origin) : Fades origins origins := fun _ _ => id

/-- A sound store stays sound, and keeps the origins of the rows that it keeps. -/
def Traces [Sound σ] (originAt : σ → Place → Option Origin) (store after : σ) : Prop :=
  isSound store → isSound after ∧ Fades (originAt store) (originAt after)

theorem traces_chains [Sound σ] (originAt : σ → Place → Option Origin) :
    Chains (Traces originAt) where
  refl _ sound := ⟨sound, .refl _⟩
  trans first second sound := by
    obtain ⟨between, fades⟩ := first sound
    obtain ⟨after, fades'⟩ := second between
    exact ⟨after, fun place origin found => fades place origin (fades' place origin found)⟩

/-- A store whose rows can be traced to their origins. -/
class Traced (σ : Type) [Storage σ] [Sound σ] where
  originAt : σ → Place → Option Origin
  nextUid : ∀ mailbox, (Storage.nextUid mailbox).Within (Traces originAt)
  nextModSeq : ∀ mailbox, (Storage.nextModSeq mailbox).Within (Traces originAt)
  insert : ∀ (message : Message) (store : σ), isSound store →
    isSound (Storage.insert message store).2 ∧ Adds message (originAt store)
      (Storage.insert message store).1 (originAt (Storage.insert message store).2)
  updateFlags : ∀ mailbox uid edit modSeq expected,
    (Storage.updateFlags mailbox uid edit modSeq expected).Within (Traces originAt)
  resetRecent : ∀ mailbox uids modSeq, modSeq ≤ maxStored → uids.Pairwise (· < ·) →
    (Storage.resetRecent mailbox uids modSeq).Within (Traces originAt)
  deleteBatch : ∀ mailbox uids, uids.Pairwise (· < ·) →
    (Storage.deleteBatch mailbox uids).Within (Traces originAt)
  deleteMailbox : ∀ mailbox, (Storage.deleteMailbox mailbox).Within (Traces originAt)
  deleteMessage : ∀ id, (Storage.deleteMessage id).Within (Traces originAt)
  appendChange : ∀ draft expiresAt,
    (Storage.appendChange draft expiresAt).Within (Traces originAt)
  purgeExpired : ∀ now, (Storage.purgeExpired now).Within (Traces originAt)

export Traced (originAt)

/-! ### The step -/

namespace Service

variable [Storage σ] [Sound σ] [Traced σ] {policy : Policy} {start store : σ} {calls : List Call}
  {call : Call}

/-- Writes other than appends add no row. -/
theorem writes_trace : Writes σ (fun call => ¬ call.IsAppend) (Traces originAt) where
  nextUid := Traced.nextUid
  nextModSeq := Traced.nextModSeq
  append _ _ _ isOther := absurd trivial isOther
  applyFlags := applyFlags_within (traces_chains _) Traced.nextModSeq Traced.updateFlags
  resetRecent mailbox _ modSeq _ fits part := Traced.resetRecent mailbox part modSeq fits
  deleteBatch := Traced.deleteBatch
  deleteMailbox := Traced.deleteMailbox
  deleteMessage := Traced.deleteMessage
  appendChange draft expiresAt _ := Traced.appendChange draft expiresAt
  purgeExpired now _ := Traced.purgeExpired now

/-- A call is the append that made the row of some origin at a place. -/
def Call.Makes (policy : Policy) (store : σ) (call : Call) (place : Place) (origin : Origin) :
    Prop :=
  ∃ new now metadata, call = .append place.mailbox new now ∧
    ((Call.append place.mailbox new now).run policy store).1 = .ok metadata ∧
    metadata.uid = place.uid ∧ origin = new.origin

/-- An append that fails adds no row, and one that succeeds adds the row that it answers. -/
theorem append_traces (policy : Policy) (mailbox : MailboxId) (new : NewMessage) (now : Instant)
    (sound : isSound store) :
    let call := Call.append mailbox new now
    ∀ place origin, originAt (call.run policy store).2 place = some origin →
      originAt store place = some origin ∨ call.Makes policy store place origin := by
  intro call place origin found
  change originAt (Service.append mailbox new now store).2 place = some origin at found
  obtain ⟨sound₁, fades₁⟩ := Traced.nextUid mailbox store sound
  rcases append_cases mailbox new now store with
    ⟨e, after, counted, failed⟩ | ⟨uid, middle, counted, ending⟩
  · rw [counted] at fades₁
    rw [failed] at found
    exact .inl (fades₁ place origin found)
  rw [counted] at sound₁ fades₁
  obtain ⟨sound₂, fades₂⟩ := Traced.nextModSeq mailbox middle sound₁
  rcases ending with ⟨e, after, stamped, failed⟩ | ⟨modSeq, last, stamped, ended⟩
  · rw [stamped] at fades₂
    rw [failed] at found
    exact .inl (fades₁ place origin (fades₂ place origin found))
  rw [stamped] at sound₂ fades₂
  rw [ended] at found
  rcases (Traced.insert _ last sound₂).2 place origin found with before | ⟨answered, rfl, rfl⟩
  · exact .inl (fades₁ place origin (fades₂ place origin before))
  · refine .inr ⟨new, now, (new.row mailbox uid modSeq now).metadata, rfl, ?_, rfl, rfl⟩
    show (Service.append mailbox new now store).1 = _
    rw [ended, answered]
    rfl

/-- A row that is there after a call was there before, or the call is the append that made it. -/
theorem Call.run_traces [PureReads σ] (policy : Policy) (call : Call) (sound : isSound store)
    (place : Place) (origin : Origin)
    (found : originAt (call.run policy store).2 place = some origin) :
    originAt store place = some origin ∨ call.Makes policy store place origin := by
  by_cases isAppend : call.IsAppend
  · cases call with
    | append mailbox new now => exact append_traces policy mailbox new now sound place origin found
    | _ => exact isAppend.elim
  · exact .inl ((Call.run_within (traces_chains _) writes_trace policy call isAppend store
      sound).2 place origin found)

/-! ### The run -/

/-- The call at some position is the append that made the row of some origin at a place. -/
def Made (policy : Policy) (start : σ) (calls : List Call) (place : Place) (origin : Origin)
    (position : Nat) : Prop :=
  ∃ call, calls[position]? = some call ∧
    call.Makes policy (storeAfter policy start calls position) place origin

omit [Sound σ] [Traced σ] in
theorem Made.position_lt {place : Place} {origin : Origin} {position : Nat}
    (made : Made policy start calls place origin position) : position < calls.length := by
  obtain ⟨call, present, -⟩ := made
  exact (List.getElem?_eq_some_iff.mp present).1

omit [Sound σ] [Traced σ] in
theorem Made.concat {place : Place} {origin : Origin} {position : Nat}
    (made : Made policy start calls place origin position) :
    Made policy start (calls ++ [call]) place origin position := by
  have early := made.position_lt
  obtain ⟨maker, present, makes⟩ := made
  refine ⟨maker, (List.getElem?_append_left early).trans present, ?_⟩
  rwa [storeAfter_concat (Nat.le_of_lt early)]

omit [Sound σ] [Traced σ] in
theorem Made.of_last {place : Place} {origin : Origin}
    (makes : call.Makes policy (Call.runAll policy calls start).2 place origin) :
    Made policy start (calls ++ [call]) place origin calls.length := by
  refine ⟨call, List.getElem?_concat_length, ?_⟩
  rwa [storeAfter_concat (Nat.le_refl _), storeAfter_length]

/-- After calls on a store without rows, each row was made by one of them. -/
theorem run_made [Revised σ] [PureReads σ] (sound : isSound start)
    (nothing : ∀ place, originAt start place = none) (calls : List Call) (place : Place)
    (origin : Origin) (found : originAt (Call.runAll policy calls start).2 place = some origin) :
    ∃ position, Made policy start calls place origin position := by
  induction calls using List.reverseRecOn with
  | nil =>
    rw [show (Call.runAll policy [] start).2 = start from rfl, nothing] at found
    cases found
  | append_singleton calls call ih =>
    rw [runAll_concat] at found
    rcases call.run_traces policy (Call.runAll_sound policy calls sound) place origin found with
      before | makes
    · obtain ⟨position, made⟩ := ih before
      exact ⟨position, made.concat⟩
    · exact ⟨calls.length, .of_last makes⟩

/-- Each row has a number that was given out. -/
theorem run_uid_pos [Revised σ] [PureReads σ] (sound : isSound start)
    (nothing : ∀ place, originAt start place = none) (calls : List Call) (place : Place)
    (origin : Origin) (found : originAt (Call.runAll policy calls start).2 place = some origin) :
    1 ≤ place.uid := by
  obtain ⟨_, _, -, new, now, metadata, -, answered, same, -⟩ :=
    run_made sound nothing calls place origin found
  rw [← same]
  exact Nat.succ_le_of_lt (Nat.zero_lt_of_lt
    (append_uid_between (Call.runAll_sound policy _ sound) (Prod.ext answered rfl)).1)

/-! ### One append to a number -/

omit [Sound σ] [Traced σ] in
/-- The store after one more of the calls. -/
theorem storeAfter_succ {position : Nat} (present : calls[position]? = some call) :
    storeAfter policy start calls (position + 1)
      = (call.run policy (storeAfter policy start calls position)).2 := by
  unfold storeAfter
  rw [List.take_add_one, present, Option.toList_some, runAll_concat]

variable [Revised σ] [PureReads σ]

omit [Traced σ] in
/-- After more of the calls, numbers that were given out last are as great or greater. -/
theorem storeAfter_lastUid_le (sound : isSound start) {count count' : Nat}
    (isEarlier : count ≤ count') (mailbox : MailboxId) :
    (view (storeAfter policy start calls count)).lastUid mailbox
      ≤ (view (storeAfter policy start calls count')).lastUid mailbox := by
  obtain ⟨more, rfl⟩ := Nat.exists_eq_add_of_le isEarlier
  unfold storeAfter
  rw [List.take_add, Call.runAll_append]
  exact (Call.runAll_raiseUids policy _ _ (Call.runAll_sound policy _ sound)).2 mailbox

omit [Traced σ] in
/-- The append that made a row was given its number when it was called. -/
theorem Made.uid_between (sound : isSound start) {place : Place} {origin : Origin} {position : Nat}
    (made : Made policy start calls place origin position) :
    (view (storeAfter policy start calls position)).lastUid place.mailbox < place.uid ∧
      place.uid ≤ (view (storeAfter policy start calls (position + 1))).lastUid place.mailbox := by
  obtain ⟨_, present, new, now, metadata, rfl, answered, same, -⟩ := made
  rw [← same, storeAfter_succ present]
  exact append_uid_between (Call.runAll_sound policy _ sound) (Prod.ext answered rfl)

omit [Traced σ] in
/-- One append made the row of a place, for numbers are used once. -/
theorem Made.unique (sound : isSound start) {place : Place} {origin origin' : Origin}
    {position position' : Nat} (made : Made policy start calls place origin position)
    (made' : Made policy start calls place origin' position') :
    position = position' ∧ origin = origin' := by
  -- The later of two would be given a number greater than that of the place.
  have apart {origin origin' : Origin} {position position' : Nat}
      (made : Made policy start calls place origin position)
      (made' : Made policy start calls place origin' position') : ¬ position < position' := by
    intro earlier
    have given := (made.uid_between sound).2
    have taken := (made'.uid_between sound).1
    have between : (view (storeAfter policy start calls (position + 1))).lastUid place.mailbox
        ≤ (view (storeAfter policy start calls position')).lastUid place.mailbox :=
      storeAfter_lastUid_le sound earlier place.mailbox
    exact Nat.not_lt.mpr (Nat.le_trans given between) taken
  obtain rfl : position = position' :=
    Nat.le_antisymm (Nat.not_lt.mp (apart made' made)) (Nat.not_lt.mp (apart made made'))
  obtain ⟨_, present, new, now, _, rfl, -, -, rfl⟩ := made
  obtain ⟨_, present', new', now', _, rfl, -, -, rfl⟩ := made'
  rw [present] at present'
  cases present'
  exact ⟨rfl, rfl⟩

end Service

/-! ### In memory -/

namespace Memory.Store

variable {m : Store}

/-- The origins of the rows. -/
def originAt (m : Store) (place : Place) : Option Origin := (m.rows.get? place).map Message.origin

/-- A row that is there after a write was there before with the same origin, or it was inserted. -/
theorem run_origins (write : Write) (place : Place) (origin : Origin)
    (found : (write.run m).originAt place = some origin) :
    m.originAt place = some origin ∨
      ∃ message, write = .insert message ∧ place = message.place ∧ origin = message.origin := by
  obtain ⟨row, stored, rfl⟩ := Option.map_eq_some_iff.mp found
  refine run_everyRow (P := fun place row => m.originAt place = some row.origin ∨
    ∃ message, write = .insert message ∧ place = message.place ∧ row.origin = message.origin)
    (fun _ _ _ _ => id) write (fun message inserts => .inr ⟨message, inserts, rfl, rfl⟩)
    (fun place row stored => .inl ?_) place row stored
  exact congrArg (Option.map Message.origin) stored

/-- A write that is no insert keeps the origins of the rows that it keeps. -/
theorem run_fades (write : Write) (isOther : ∀ message, write ≠ .insert message) :
    Fades m.originAt (write.run m).originAt := fun place origin found =>
  (run_origins write place origin found).resolve_right fun ⟨message, inserts, _⟩ =>
    isOther message inserts

theorem insert_adds (message : Message) :
    Adds message m.originAt (Storage.insert message m).1 (Storage.insert message m).2.originAt := by
  intro place origin found
  rcases run_origins (.insert message) place origin found with before | ⟨_, inserts, here, same⟩
  · exact .inl before
  · cases inserts
    cases done : m.insert message with
    | error e =>
      rw [show Storage.insert message m = _ from Step.write_of_error done] at found
      exact .inl found
    | ok outcome =>
      rw [show Storage.insert message m = _ from Step.write_of_ok done]
      exact .inr ⟨rfl, here, same⟩

open Revised in
instance : Traced Store where
  originAt := originAt
  nextUid mailbox m sound :=
    ⟨operations_sound.nextUid mailbox m sound, run_fades (.nextUid mailbox) fun _ => nofun⟩
  nextModSeq mailbox m sound :=
    ⟨operations_sound.nextModSeq mailbox m sound, run_fades (.nextModSeq mailbox) fun _ => nofun⟩
  insert message m sound := ⟨operations_sound.insert message m sound, insert_adds message⟩
  updateFlags mailbox uid edit modSeq expected m sound :=
    ⟨operations_sound.updateFlags mailbox uid edit modSeq expected m sound,
      run_fades (.updateFlags mailbox uid edit modSeq expected) fun _ => nofun⟩
  resetRecent mailbox uids modSeq fits ascending m sound :=
    ⟨operations_sound.resetRecent mailbox uids modSeq fits ascending m sound,
      run_fades (.resetRecent mailbox uids modSeq) fun _ => nofun⟩
  deleteBatch mailbox uids ascending m sound :=
    ⟨operations_sound.deleteBatch mailbox uids ascending m sound,
      run_fades (.deleteBatch mailbox uids) fun _ => nofun⟩
  deleteMailbox mailbox m sound :=
    ⟨operations_sound.deleteMailbox mailbox m sound,
      run_fades (.deleteMailbox mailbox) fun _ => nofun⟩
  deleteMessage id m sound :=
    ⟨operations_sound.deleteMessage id m sound, run_fades (.deleteMessage id) fun _ => nofun⟩
  appendChange draft expiresAt m sound :=
    ⟨operations_sound.appendChange draft expiresAt m sound,
      run_fades (.appendChange draft expiresAt) fun _ => nofun⟩
  purgeExpired now m sound :=
    ⟨operations_sound.purgeExpired now m sound, run_fades (.purgeExpired now) fun _ => nofun⟩

end Memory.Store

/-! ### In the database -/

/-- The origins of the rows whose columns hold values of the right types. -/
def Database.Store.originAt (d : Database.Store) (place : Place) : Option Origin :=
  (d.database.messages.get? place).bind fun row =>
    row.values.toOption.map fun values => ⟨values.messageId, values.size.toNat⟩

/-- A row that was written has the origin of its message. -/
theorem Database.Store.originAt_of_encode {d : Database.Store} {place : Place} {message : Message}
    (found : d.database.messages.get? place = some (.encode message)) :
    d.originAt place = some message.origin := by
  unfold originAt
  rw [found, Option.bind_some, MessageRow.values_encode]
  rfl

namespace Mirror

open Database (MessageRow)

variable {regular : Prop} {log : Log} {m : Memory.Store} {d : Database.Store}

/-- Rows of a database have the origins of those in memory. -/
theorem Mirrors.originAt_eq (mirrors : Mirrors regular log m d) : d.originAt = m.originAt := by
  funext place
  have same := mirrors.get?_messages place
  unfold Memory.Store.originAt
  cases found : m.rows.get? place with
  | none =>
    rw [found] at same
    exact congrArg (Option.bind · _) same
  | some row =>
    rw [found] at same
    exact Database.Store.originAt_of_encode same

/-- A step of the database keeps the origins that the step in memory keeps that it follows. -/
theorem traces_of_follows {left : Step Memory.Store α} {right : Step Database.Store α}
    (traces : left.Within (Traces Memory.Store.originAt))
    (follows : ∀ {log m d}, Mirrors False log m d → Follows False log left right m d) :
    right.Within (Traces Database.Store.originAt) := fun _ =>
  sound_of_follows (fun origins _ => Fades origins) (fun mirrors => mirrors.originAt_eq)
    (fun origins _ => .refl origins) traces follows

theorem KeepsRows.traces {after : Database.Store} (keeps : KeepsRows d after) :
    after.IsSound ∧ Fades d.originAt after.originAt := by
  obtain ⟨m, log, log', sound, mirrors, after, written⟩ := keeps
  refine ⟨after.isSound sound written, ?_⟩
  rw [mirrors.originAt_eq, after.originAt_eq]
  exact .refl _

open Traced in
instance : Traced Database.Store where
  originAt := Database.Store.originAt
  nextUid mailbox := traces_of_follows (nextUid mailbox) fun mirrors =>
    mirrors.nextUid_follows mailbox
  nextModSeq mailbox := traces_of_follows (nextModSeq mailbox) fun mirrors =>
    mirrors.nextModSeq_follows mailbox
  insert message _ := sound_of_follows (fun before => Adds message before)
    (fun mirrors => mirrors.originAt_eq) (fun _ _ _ _ => .inl) (insert message.asWritten)
    fun mirrors => mirrors.insert_follows message
  updateFlags mailbox uid edit modSeq expected :=
    traces_of_follows (updateFlags mailbox uid edit modSeq expected) fun mirrors =>
      mirrors.updateFlags_follows mailbox uid edit modSeq expected
  resetRecent mailbox uids modSeq fits ascending :=
    traces_of_follows (resetRecent mailbox uids modSeq fits ascending) fun mirrors =>
      mirrors.resetRecent_follows mailbox fits ascending
  deleteBatch mailbox uids ascending := traces_of_follows (deleteBatch mailbox uids ascending)
    fun mirrors => mirrors.deleteBatch_follows mailbox ascending
  deleteMailbox mailbox := traces_of_follows (deleteMailbox mailbox) fun mirrors =>
    mirrors.deleteMailbox_follows mailbox
  deleteMessage id := traces_of_follows (deleteMessage id) fun mirrors =>
    .inl (mirrors.deleteMessage_agrees id)
  appendChange draft expiresAt _ sound := (appendChange_keepsRows sound draft expiresAt).traces
  purgeExpired now _ sound := (purgeExpired_keepsRows sound now).traces

end Mirror

end Mailroom
