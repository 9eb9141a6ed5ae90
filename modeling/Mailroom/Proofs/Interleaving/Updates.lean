import Mailroom.Proofs.Interleaving.Systems
/-!
Conditional updates of rows that several clients write to.

A client that has seen a row asks for its flags to be changed only if the row still bears the
modification sequence that was seen. Whatever the other clients do in between, an update that
succeeds then changes the flags that were seen, and of several updates that expect the same
modification sequence of a row one at most succeeds (`updates_keep`).
-/

namespace Mailroom.Interleaving

open Revised Pending

/-- An answer shows a client what the row of a place bears. -/
def Access.Shows (place : Place) (r : Revision) :
    (access : Access) → Except StoreError access.Answer → Prop
  | insert message, .ok _ => message.place = place ∧ r = ⟨message.modSeq, message.flags⟩
  | find mailbox uid _, .ok found =>
    ⟨mailbox, uid⟩ = place ∧ ∃ row : Message, found = some row ∧ r = ⟨row.modSeq, row.flags⟩
  | updateFlags mailbox uid _ _ _, .ok metadata =>
    ⟨mailbox, uid⟩ = place ∧ r = ⟨Metadata.modSeq metadata, Metadata.flags metadata⟩
  | _, _ => False

/-- An update succeeds that expected a modification sequence of the row of a place. -/
def Access.Meets (place : Place) (modSeq : ModSeq) :
    (access : Access) → Except StoreError access.Answer → Prop
  | updateFlags mailbox uid _ _ expected, .ok _ =>
    ⟨mailbox, uid⟩ = place ∧ expected = some modSeq
  | _, _ => False

variable {σ : Type} [Storage σ]

namespace Event

@[inherit_doc Access.Shows]
def Shows (e : Event σ) (place : Place) (r : Revision) : Prop := e.access.Shows place r e.answer

@[inherit_doc Access.Meets]
def Meets (e : Event σ) (place : Place) (modSeq : ModSeq) : Prop :=
  e.access.Meets place modSeq e.answer

end Event

/-- Conditional updates lose nothing over a run from a store. -/
structure KeepsUpdates [Sound σ] [Revised σ] (start : σ) (moves : List Move) : Prop where
  /-- What an answer shows of a row is what the row bears. -/
  shown : ∀ e ∈ (System.run moves ⟨start, []⟩).1, ∀ place r, e.Shows place r →
    (view e.after).revisionAt place = some r
  /-- An update that expects what a row bore at an earlier point, and succeeds, edits the flags that
  the row bore then. No access in between wrote to the row. -/
  preimage : ∀ front seen between update back,
    (System.run moves ⟨start, []⟩).1 = front ++ seen :: (between ++ update :: back) →
    ∀ place r, (view seen.after).revisionAt place = some r → update.Meets place r.modSeq →
      (∀ e ∈ between, ¬ e.Writes place) ∧ (view update.before).revisionAt place = some r ∧
        ∃ edit modSeq,
          update.access = .updateFlags place.mailbox place.uid edit modSeq (some r.modSeq) ∧
          (view update.after).revisionAt place = some ⟨modSeq, edit.apply r.flags⟩
  /-- Of the clients that expect the same of a row one at most succeeds. -/
  once : ∀ (mailbox : MailboxId) (uid : Uid) (modSeq : ModSeq) (one other : Nat)
    (update update' : FlagUpdate) (metadata metadata' : Metadata),
    (System.run moves ⟨start, []⟩).2.clients[one]?
      = some ⟨.applyFlags mailbox uid update (some modSeq), done (.ok metadata)⟩ →
    (System.run moves ⟨start, []⟩).2.clients[other]?
      = some ⟨.applyFlags mailbox uid update' (some modSeq), done (.ok metadata')⟩ → one = other

/-! ### Answers -/

section Answers

variable {place : Place} {modSeq : ModSeq} {r : Revision} {v v' : View} {mailbox : MailboxId}
  {uid : Uid}

/-- An update that succeeds writes to the row. -/
theorem Access.Meets.writes {access : Access} {answer : Except StoreError access.Answer}
    (meets : access.Meets place modSeq answer) : access.Writes place answer := by
  cases access with
  | updateFlags mailbox uid edit stamp expected =>
    cases answer with
    | error => exact meets.elim
    | ok metadata => exact meets.1
  | _ => exact False.elim meets

/-- An update that succeeds has found what it expected and has edited the flags that it found. -/
theorem Access.Meets.of_edits {edit : FlagEdit} {stamp : ModSeq} {expected : Option ModSeq}
    {answer : Except StoreError Metadata}
    (meets : (updateFlags mailbox uid edit stamp expected).Meets place modSeq answer)
    (edits : View.EditsRow ⟨mailbox, uid⟩ edit stamp expected v answer v') :
    ⟨mailbox, uid⟩ = place ∧ expected = some modSeq ∧ ∃ r, v.revisionAt place = some r ∧
      r.modSeq = modSeq ∧ v'.revisionAt place = some ⟨stamp, edit.apply r.flags⟩ := by
  cases answer with
  | error => exact meets.elim
  | ok metadata =>
    obtain ⟨rfl, rfl⟩ := meets
    obtain ⟨r, found, met, -, -, rfl⟩ := edits
    exact ⟨rfl, rfl, r, found, met modSeq rfl, if_pos rfl⟩

theorem Access.Shows.of_inserts {message : Message} {answer : Except StoreError Unit}
    (shows : (insert message).Shows place r answer)
    (inserts : View.InsertsRow message v answer v') : v'.revisionAt place = some r := by
  cases answer with
  | error => exact shows.elim
  | ok _ =>
    obtain ⟨rfl, rfl⟩ := shows
    obtain ⟨-, rfl⟩ := inserts
    exact if_pos rfl

theorem Access.Shows.of_found {fetch : Fetch} {answer : Except StoreError (Option Message)}
    (shows : (find mailbox uid fetch).Shows place r answer)
    (found : ∀ row, answer = .ok (some row) →
      v.revisionAt ⟨mailbox, uid⟩ = some ⟨row.modSeq, row.flags⟩) :
    v.revisionAt place = some r := by
  cases answer with
  | error => exact shows.elim
  | ok _ =>
    obtain ⟨rfl, row, rfl, rfl⟩ := shows
    exact found row rfl

theorem Access.Shows.of_edits {edit : FlagEdit} {stamp : ModSeq} {expected : Option ModSeq}
    {answer : Except StoreError Metadata}
    (shows : (updateFlags mailbox uid edit stamp expected).Shows place r answer)
    (edits : View.EditsRow ⟨mailbox, uid⟩ edit stamp expected v answer v') :
    v'.revisionAt place = some r := by
  cases answer with
  | error => exact shows.elim
  | ok metadata =>
    obtain ⟨rfl, rfl⟩ := shows
    obtain ⟨r, -, -, stamped, flags, rfl⟩ := edits
    rw [stamped, flags]
    exact if_pos rfl

end Answers

/-! ### Events -/

section Events

variable [Sound σ] [Revised σ] [Truthful σ] {e : Event σ} {place : Place} {modSeq : ModSeq}

/-- An update that succeeds is one that expected what the row bore. -/
theorem Event.Meets.found (meets : e.Meets place modSeq) (sound : isSound e.before) :
    ∃ r, (view e.before).revisionAt place = some r ∧ r.modSeq = modSeq ∧ ∃ edit stamp,
      e.access = .updateFlags place.mailbox place.uid edit stamp (some modSeq) ∧
      (view e.after).revisionAt place = some ⟨stamp, edit.apply r.flags⟩ := by
  obtain ⟨client, before, access⟩ := e
  cases access with
  | updateFlags mailbox uid edit stamp expected =>
    obtain ⟨-, edits⟩ := Truthful.updateFlags mailbox uid edit stamp expected before sound
    obtain ⟨rfl, rfl, r, found, met, after⟩ := Access.Meets.of_edits meets edits
    exact ⟨r, found, met, edit, stamp, rfl, after⟩
  | _ => exact False.elim meets

/-- What is shown of a row is what the row bears. -/
theorem Event.Shows.borne [PureReads σ] {r : Revision} (shows : e.Shows place r)
    (sound : isSound e.before) : (view e.after).revisionAt place = some r := by
  obtain ⟨client, before, access⟩ := e
  cases access with
  | insert message =>
    exact Access.Shows.of_inserts shows (Truthful.insert message before sound).2
  | find mailbox uid fetch =>
    have same : (Event.mk client before (.find mailbox uid fetch)).after = before :=
      PureReads.find _ _ _ _
    rw [same]
    exact Access.Shows.of_found shows (Truthful.find mailbox uid fetch before sound)
  | updateFlags mailbox uid edit stamp expected =>
    obtain ⟨-, edits⟩ := Truthful.updateFlags mailbox uid edit stamp expected before sound
    exact Access.Shows.of_edits shows edits
  | _ => exact False.elim shows

omit [Sound σ] [Revised σ] [Truthful σ] in
theorem Event.Meets.writes (meets : e.Meets place modSeq) : e.Writes place :=
  Access.Meets.writes meets

/-- Two updates of one row that expect the same do not both succeed. -/
theorem Traced.meets_once {spent : Stamp → Prop} {store : σ} {front between back : List (Event σ)}
    {first second : Event σ}
    (traced : Traced spent store (front ++ first :: (between ++ second :: back)))
    (meets : first.Meets place modSeq) : ¬ second.Meets place modSeq := by
  intro again
  obtain ⟨_, _, rest⟩ := traced.drop
  cases rest with
  | cons _ sound rows fresh grows later =>
    obtain ⟨r, found, same, -⟩ := meets.found sound
    have used := rows place r found
    have absent : ∀ r, (view first.after).revisionAt place = some r → r.modSeq ≠ modSeq := by
      intro left present equal
      rw [same, ← equal] at used
      exact fresh.fresh place meets.writes left present used
    obtain ⟨r', found', same', -⟩ := again.found later.sound_before
    exact later.gone (grows _ (same ▸ used)) absent r' found' same'

/-- So one of the events of a run at most is such an update. -/
theorem Traced.meets_unique {spent : Stamp → Prop} {store : σ} {events : List (Event σ)}
    (traced : Traced spent store events) {first second : Event σ} (firstMember : first ∈ events)
    (secondMember : second ∈ events) (firstMeets : first.Meets place modSeq)
    (secondMeets : second.Meets place modSeq) : first = second := by
  obtain ⟨front, back, split⟩ := List.append_of_mem firstMember
  rw [split] at traced secondMember
  rcases List.mem_append.mp secondMember with before | after
  · obtain ⟨front', between, split'⟩ := List.append_of_mem before
    rw [split', List.append_assoc] at traced
    exact absurd firstMeets (traced.meets_once secondMeets)
  · rcases List.mem_cons.mp after with same | after
    · exact same.symm
    · obtain ⟨between, back', split'⟩ := List.append_of_mem after
      rw [split'] at traced
      exact absurd secondMeets (traced.meets_once firstMeets)

end Events

/-! ### Clients -/

/-- How far a client has come that updates flags, after some events. -/
inductive Stage (events : List (Event σ)) (client : Nat) (mailbox : MailboxId) (uid : Uid)
    (update : FlagUpdate) (expected : Option ModSeq) : Pending Metadata → Prop where
  | begun : Stage events client mailbox uid update expected
    (applyFlags mailbox uid update expected)
  | stamped (modSeq : ModSeq) : Stage events client mailbox uid update expected
    (waits (.updateFlags mailbox uid (.ofUpdate update) modSeq expected) done)
  | failed (e : StoreError) : Stage events client mailbox uid update expected (done (.error e))
  /-- One of the events is the update. -/
  | updated (metadata : Metadata) (e : Event σ) (member : e ∈ events) (own : e.client = client)
      (meets : ∀ modSeq ∈ expected, e.Meets ⟨mailbox, uid⟩ modSeq) :
    Stage events client mailbox uid update expected (done (.ok metadata))

namespace Stage

variable {events later : List (Event σ)} {client : Nat} {mailbox : MailboxId} {uid : Uid}
  {update : FlagUpdate} {expected : Option ModSeq} {pending : Pending Metadata}

theorem mono (stage : Stage events client mailbox uid update expected pending)
    (sub : ∀ e ∈ events, e ∈ later) : Stage later client mailbox uid update expected pending := by
  cases stage with
  | begun => exact .begun
  | stamped modSeq => exact .stamped modSeq
  | failed e => exact .failed e
  | updated metadata e member own meets => exact .updated metadata e (sub e member) own meets

/-- A client that makes its next access comes to its next stage, with that access as an event. -/
theorem advance {access : Access} {next : Except StoreError access.Answer → Pending Metadata}
    (stage : Stage events client mailbox uid update expected (waits access next)) (before : σ) :
    Stage (events ++ [⟨client, before, access⟩]) client mailbox uid update expected
      (next (access.run before).1) := by
  generalize waiting : waits access next = pending at stage
  cases stage with
  | begun =>
    cases waiting
    cases (Access.run (.nextModSeq mailbox) before).1 with
    | error e => exact .failed e
    | ok modSeq => exact .stamped modSeq
  | stamped modSeq =>
    cases waiting
    let event : Event σ :=
      ⟨client, before, .updateFlags mailbox uid (.ofUpdate update) modSeq expected⟩
    cases answered : event.answer with
    | error e =>
      rw [show (Access.run _ before).1 = _ from answered]
      exact .failed e
    | ok metadata =>
      rw [show (Access.run _ before).1 = _ from answered]
      refine .updated metadata event (List.mem_append_right _ List.mem_cons_self) rfl ?_
      intro expectedModSeq expects
      unfold Event.Meets
      rw [answered]
      exact ⟨rfl, expects⟩
  | failed => cases waiting
  | updated => cases waiting

end Stage

/-- Every client that updates flags has come to one of the stages. -/
def System.IsStaged (system : System σ) (events : List (Event σ)) : Prop :=
  ∀ (client : Nat) mailbox uid update expected pending,
    system.clients[client]? = some ⟨.applyFlags mailbox uid update expected, pending⟩ →
    Stage events client mailbox uid update expected pending

theorem System.IsStaged.run {system : System σ} {events : List (Event σ)}
    (staged : system.IsStaged events) (moves : List Move) :
    (System.run moves system).2.IsStaged (events ++ (System.run moves system).1) := by
  induction moves generalizing system events with
  | nil =>
    rw [show (System.run [] system).1 = [] from rfl, List.append_nil]
    exact staged
  | cons move rest ih =>
    cases move with
    | begin request =>
      have more : IsStaged { system with clients := system.clients ++ [⟨request, request.begin⟩] }
          events := by
        intro client mailbox uid update expected pending present
        rcases of_getElem?_concat present with present | new
        · exact staged client mailbox uid update expected pending present
        · cases new
          exact .begun
      exact ih more
    | advance client =>
      unfold System.run System.move
      simp only
      rcases waiting : system.clients[client]? with _ | ⟨request, outcome | ⟨access, next⟩⟩
      · exact ih staged
      · exact ih staged
      · have step : events ++ ((some (⟨client, system.store, access⟩ : Event σ)).toList
            ++ (System.run rest ⟨(access.run system.store).2, system.clients.set client
              ⟨request, next (access.run system.store).1⟩⟩).1)
          = (events ++ [⟨client, system.store, access⟩]) ++ (System.run rest
              ⟨(access.run system.store).2, system.clients.set client
                ⟨request, next (access.run system.store).1⟩⟩).1 := (List.append_assoc _ _ _).symm
        refine step ▸ ih fun other mailbox uid update expected pending present => ?_
        rcases of_getElem?_set waiting present with ⟨rfl, same⟩ | ⟨-, present⟩
        · cases same
          exact (staged other mailbox uid update expected _ waiting).advance system.store
        · exact (staged other mailbox uid update expected pending present).mono fun e member =>
            List.mem_append_left _ member

/-! ### Runs -/

/-- Over every run from an empty store, conditional updates lose nothing. -/
theorem keepsUpdates [Sound σ] [Revised σ] [Truthful σ] [PureReads σ] {start : σ}
    (sound : isSound start) (empty : ∀ place, (view start).revisionAt place = none)
    (moves : List Move) : KeepsUpdates start moves := by
  have traced : Traced (fun _ => False) start (System.run moves ⟨start, []⟩).1 :=
    (System.isKept_start sound empty).traced moves
  constructor
  case shown =>
    intro e member place r shows
    obtain ⟨front, back, split⟩ := List.append_of_mem member
    rw [split] at traced
    exact shows.borne traced.sound_before
  case preimage =>
    intro front seen between update back split place r bears meets
    rw [split] at traced
    obtain ⟨_, _, rest⟩ := traced.drop
    cases rest with
    | cons _ _ _ _ _ later =>
      obtain ⟨r', found, same, edit, stamp, access, after⟩ := meets.found later.sound_before
      obtain ⟨spared, reached⟩ := later.unwritten bears found same
      rw [reached] at found
      cases found
      exact ⟨spared, reached, edit, stamp, access, after⟩
  case once =>
    intro mailbox uid modSeq one other update update' metadata metadata' doneOne doneOther
    have staged : (System.run moves ⟨start, []⟩).2.IsStaged
        ([] ++ (System.run moves ⟨start, []⟩).1) :=
      System.IsStaged.run (fun _ _ _ _ _ _ present => by cases present) moves
    rw [List.nil_append] at staged
    cases staged one mailbox uid update (some modSeq) _ doneOne with
    | updated _ first firstMember firstOwn firstMeets =>
      cases staged other mailbox uid update' (some modSeq) _ doneOther with
      | updated _ second secondMember secondOwn secondMeets =>
        have same : first = second := traced.meets_unique firstMember secondMember
          (firstMeets modSeq rfl) (secondMeets modSeq rfl)
        rw [← firstOwn, ← secondOwn, same]

/-- Conditional updates lose nothing over any run of clients, in memory and in the database. -/
theorem updates_keep (path : String) (listBound : Nat) (moves : List Move) :
    KeepsUpdates (Memory.Store.new listBound) moves ∧
      KeepsUpdates (Database.Store.new path listBound) moves := by
  constructor
  · exact keepsUpdates (Memory.Store.new_isSound listBound) (fun _ => rfl) moves
  · exact keepsUpdates (Mirror.new_isSound path listBound) (fun _ => rfl) moves

/-- The modification sequence that a client was told when its update succeeded. -/
def Client.updated? : Client → Option ModSeq
  | ⟨.applyFlags .., done (.ok metadata)⟩ => some (Metadata.modSeq metadata)
  | _ => none

/-- Two clients expect the same of a row, and the one that was given its modification sequence later
writes first. -/
def race : List Move :=
  let seen : FlagUpdate := ⟨{ seen := true }, .add⟩
  [.begin (.append "inbox" { id := "m" } .epoch), .advance 0, .advance 0, .advance 0,
    .begin (.applyFlags "inbox" 1 seen (some 1)), .begin (.applyFlags "inbox" 1 seen (some 1)),
    .advance 1, .advance 2, .advance 2, .advance 1]

example : (System.run race ⟨Memory.Store.new 1, []⟩).2.clients.map Client.updated?
      = [none, none, some 3] ∧
    (System.run race ⟨Database.Store.new "mail" 1, []⟩).2.clients.map Client.updated?
      = [none, none, some 3] := by
  decide +kernel

end Mailroom.Interleaving
