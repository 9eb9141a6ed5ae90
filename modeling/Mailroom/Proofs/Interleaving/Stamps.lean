import Mailroom.Proofs.Interleaving.Clients
import Mailroom.Proofs.Revisions.Truthful
/-!
Whose modification sequences rows come to bear.

A client is given a modification sequence by one access and writes it to a row by a later one. In
between it holds the sequence, as a `Stamp`, and no other client does. A call writes no stamp but
the one that it holds, and gives it up by writing it (`begin_keeps`). What an access does to rows is
said by the stamp that its client holds (`access_effect`): a row that is written comes to bear it.
-/

namespace Mailroom.Interleaving

open Revised

/-- A modification sequence that a mailbox has given out. -/
structure Stamp where
  mailbox : MailboxId
  modSeq : ModSeq
deriving DecidableEq

namespace Access

/-- An access that succeeds writes to a place: it puts a row there, changes it or removes it. -/
def Writes (place : Place) : (access : Access) → Except StoreError access.Answer → Prop
  | insert message, .ok _ => message.place = place
  | updateFlags mailbox uid _ _ _, .ok _ => ⟨mailbox, uid⟩ = place
  | deleteBatch mailbox uids, .ok _ => place.mailbox = mailbox ∧ place.uid ∈ uids
  | _, _ => False

/-- An access is allowed to a client that holds a stamp, or none. -/
def IsAllowed (held : Option Stamp) : Access → Prop
  | insert message => held = some ⟨message.mailbox, message.modSeq⟩
  | updateFlags mailbox _ _ modSeq _ => held = some ⟨mailbox, modSeq⟩
  | deleteBatch _ uids => uids.Pairwise (· < ·)
  | _ => True

/-- The stamp that a client holds after an access. -/
def holds (held : Option Stamp) : (access : Access) → Except StoreError access.Answer → Option Stamp
  | nextModSeq mailbox, .ok modSeq => some ⟨mailbox, modSeq⟩
  | nextModSeq _, .error _ => none
  | insert _, _ => none
  | updateFlags .., _ => none
  | _, _ => held

/-- What an access does to the rows of a store, by the stamp that its client holds. -/
structure Effect (held : Option Stamp) (access : Access) (answer : Except StoreError access.Answer)
    (v v' : View) : Prop where
  highest : ∀ mailbox, v.highestModSeq mailbox ≤ v'.highestModSeq mailbox
  kept : ∀ place, ¬ access.Writes place answer → v'.revisionAt place = v.revisionAt place
  written : ∀ place, access.Writes place answer → ∀ r, v'.revisionAt place = some r →
    held = some ⟨place.mailbox, r.modSeq⟩ ∧ access.holds held answer = none
  given : ∀ stamp, access.holds held answer = some stamp → held = some stamp ∨
    v.highestModSeq stamp.mailbox < stamp.modSeq ∧
      stamp.modSeq ≤ v'.highestModSeq stamp.mailbox

/-- An access that leaves the rows as they are, and the stamp where it is. -/
theorem Effect.of_eq {held : Option Stamp} {access : Access}
    {answer : Except StoreError access.Answer} {v v' : View}
    (highest : ∀ mailbox, v.highestModSeq mailbox ≤ v'.highestModSeq mailbox)
    (rows : v'.revisionAt = v.revisionAt) (spares : ∀ place, ¬ access.Writes place answer)
    (holds : ∀ stamp, access.holds held answer = some stamp → held = some stamp) :
    access.Effect held answer v v' where
  highest := highest
  kept place _ := by rw [rows]
  written place writes := absurd writes (spares place)
  given stamp holding := .inl (holds stamp holding)

/-- An access that puts a row under the stamp that its client holds, and gives the stamp up. -/
theorem Effect.of_put {held : Option Stamp} {access : Access}
    {answer : Except StoreError access.Answer} {v : View} {place : Place} {r : Revision}
    (writes : ∀ other, access.Writes other answer ↔ place = other)
    (holding : held = some ⟨place.mailbox, r.modSeq⟩) (spends : access.holds held answer = none) :
    access.Effect held answer v (v.put place r) where
  highest _ := Nat.le_refl _
  kept other spared := if_neg fun same => spared ((writes other).mpr same.symm)
  written other written r' found := by
    cases (writes other).mp written
    have found : (if place = place then some r else v.revisionAt place) = some r' := found
    rw [if_pos rfl] at found
    cases found
    exact ⟨holding, spends⟩
  given stamp later := by
    rw [spends] at later
    cases later

/-- Giving out a modification sequence leaves it with the client. -/
theorem Effect.of_counts {held : Option Stamp} {mailbox : MailboxId}
    {answer : Except StoreError ModSeq} {v v' : View}
    (counts : View.CountsModSeq mailbox v answer v') :
    (nextModSeq mailbox).Effect held answer v v' := by
  have stamps := counts.stamps
  cases answer with
  | error e => exact .of_eq stamps.1.highestModSeq stamps.2.2 (fun _ => id) nofun
  | ok modSeq =>
    refine ⟨stamps.1.highestModSeq, fun place _ => by rw [stamps.2.2], nofun, ?_⟩
    rintro _ ⟨⟩
    exact .inr counts.le

theorem Effect.of_inserts {held : Option Stamp} {message : Message}
    (allowed : (insert message).IsAllowed held) {answer : Except StoreError Unit} {v v' : View}
    (inserts : View.InsertsRow message v answer v') : (insert message).Effect held answer v v' := by
  cases answer with
  | error e =>
    cases inserts
    exact .of_eq (fun _ => Nat.le_refl _) rfl (fun _ => id) nofun
  | ok _ =>
    obtain ⟨-, rfl⟩ := inserts
    exact .of_put (fun _ => Iff.rfl) allowed rfl

theorem Effect.of_edits {held : Option Stamp} {mailbox : MailboxId} {uid : Uid} {edit : FlagEdit}
    {modSeq : ModSeq} {expected : Option ModSeq}
    (allowed : (updateFlags mailbox uid edit modSeq expected).IsAllowed held)
    {answer : Except StoreError Metadata} {v v' : View}
    (edits : View.EditsRow ⟨mailbox, uid⟩ edit modSeq expected v answer v') :
    (updateFlags mailbox uid edit modSeq expected).Effect held answer v v' := by
  cases answer with
  | error e =>
    cases edits
    exact .of_eq (fun _ => Nat.le_refl _) rfl (fun _ => id) nofun
  | ok metadata =>
    obtain ⟨r, -, -, -, -, rfl⟩ := edits
    exact .of_put (fun _ => Iff.rfl) allowed rfl

theorem Effect.of_removes {held : Option Stamp} {mailbox : MailboxId} {uids : List Uid}
    {answer : Except StoreError (List Metadata)} {v v' : View}
    (removes : View.RemovesRows mailbox uids v answer v') :
    (deleteBatch mailbox uids).Effect held answer v v' := by
  cases answer with
  | error e =>
    cases removes
    exact .of_eq (fun _ => Nat.le_refl _) rfl (fun _ => id) fun _ => id
  | ok removed =>
    cases removes
    refine ⟨fun _ => Nat.le_refl _, fun place spared => if_neg spared,
      fun place writes r found => ?_, fun _ => .inl⟩
    have covered : place.mailbox = mailbox ∧ place.uid ∈ uids := writes
    have found : (if place.mailbox = mailbox ∧ place.uid ∈ uids then _ else _) = some r := found
    rw [if_pos covered] at found
    cases found

end Access

open Access

variable {σ : Type} [Storage σ] [Sound σ] [Revised σ] [Truthful σ] [PureReads σ]

/-- An access that is allowed to a client does to rows what the stamp of the client says. -/
theorem access_effect {held : Option Stamp} {access : Access} (allowed : access.IsAllowed held)
    {store : σ} (sound : isSound store) :
    isSound (access.run store).2 ∧
      access.Effect held (access.run store).1 (view store) (view (access.run store).2) := by
  cases access with
  | nextUid mailbox =>
    obtain ⟨kept, counts⟩ := Revised.nextUid mailbox store sound
    exact ⟨kept, .of_eq counts.stamps.1.highestModSeq counts.stamps.2.2 (fun _ => id) fun _ => id⟩
  | nextModSeq mailbox => exact (Revised.nextModSeq mailbox store sound).imp id .of_counts
  | insert message => exact (Truthful.insert message store sound).imp id (.of_inserts allowed)
  | find mailbox uid fetch =>
    have same : ((find mailbox uid fetch).run store).2 = store := PureReads.find _ _ _ _
    rw [same]
    exact ⟨sound, .of_eq (fun _ => Nat.le_refl _) rfl (fun _ => id) fun _ => id⟩
  | updateFlags mailbox uid edit modSeq expected =>
    exact (Truthful.updateFlags mailbox uid edit modSeq expected store sound).imp id
      (.of_edits allowed)
  | deleteBatch mailbox uids =>
    exact (Truthful.deleteBatch mailbox uids allowed store sound).imp id .of_removes
  | listBound => exact ⟨sound, .of_eq (fun _ => Nat.le_refl _) rfl (fun _ => id) fun _ => id⟩

/-! ### Calls -/

namespace Pending

variable {α : Type}

/-- What is left of a call makes only accesses that are allowed to it by the stamp that it holds. -/
def Keeps : Option Stamp → Pending α → Prop
  | _, done _ => True
  | held, waits access next =>
    access.IsAllowed held ∧ ∀ answer, (next answer).Keeps (access.holds held answer)

theorem keeps_onAnswer {held : Option Stamp} {access : Access} {next : access.Answer → Pending α}
    (allowed : access.IsAllowed held)
    (later : ∀ answer, (next answer).Keeps (access.holds held (.ok answer))) :
    (waits access (onAnswer next)).Keeps held := by
  refine ⟨allowed, fun answer => ?_⟩
  cases answer with
  | error e => trivial
  | ok answer => exact later answer

end Pending

open Pending

theorem deleteChunks_keeps {held : Option Stamp} (mailbox : MailboxId) {parts : List (List Uid)}
    (ascending : ∀ part ∈ parts, part.Pairwise (· < ·))
    (progress : BatchProgress (List Metadata)) :
    (deleteChunks mailbox parts progress).Keeps held := by
  induction parts generalizing progress with
  | nil => trivial
  | cons part rest ih =>
    refine ⟨ascending part List.mem_cons_self, fun answer => ?_⟩
    have later := ih fun part member => ascending part (List.mem_cons_of_mem _ member)
    cases answer with
    | error e => exact later _
    | ok outcome => exact later _

theorem deletePartitioned_keeps {held : Option Stamp} (mailbox : MailboxId) (bound : Nat)
    {uids : List Uid} (ascending : uids.Pairwise (· < ·)) :
    (deletePartitioned mailbox bound uids).Keeps held := by
  unfold deletePartitioned
  split
  · trivial
  · split
    · exact ⟨ascending, fun _ => trivial⟩
    · exact deleteChunks_keeps mailbox
        (fun part member => ascending.sublist (sublist_of_mem_chunks member)) _

/-- A call makes only accesses that are allowed to it, whatever it holds when it begins. -/
theorem begin_keeps (request : Request) (held : Option Stamp) : request.begin.Keeps held := by
  cases request with
  | append mailbox new now =>
    refine keeps_onAnswer trivial fun uid => keeps_onAnswer trivial fun modSeq => ?_
    exact keeps_onAnswer rfl fun _ => trivial
  | applyFlags mailbox uid update expected =>
    exact keeps_onAnswer trivial fun modSeq => ⟨rfl, fun _ => trivial⟩
  | deleteByUids mailbox uids =>
    show (deleteByUids mailbox uids).Keeps held
    unfold deleteByUids
    split
    · trivial
    · refine keeps_onAnswer trivial fun _ => keeps_onAnswer trivial fun bound => ?_
      exact deletePartitioned_keeps mailbox bound (sortedUids_ascending uids)
  | find mailbox uid fetch => exact ⟨trivial, fun _ => trivial⟩

end Mailroom.Interleaving
