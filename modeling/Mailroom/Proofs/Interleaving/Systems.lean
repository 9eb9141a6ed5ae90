import Mailroom.Proofs.Interleaving.Stamps
/-!
Clients of one store.

In a `System` any number of clients have begun calls on one store. A move begins a call or makes the
next access of one, and the accesses that the moves of a run make are its events (`System.run`). A
stamp that a client holds is held by no other and has never been on a row (`System.IsKept`). So an
event that writes to a place leaves it without a row, or with a stamp that no row has borne before;
along a run the events are `Traced` so.
-/

namespace Mailroom.Interleaving

open Revised Pending

/-- A client that has begun a call, and what is left of the call. -/
structure Client where
  request : Request
  pending : Pending request.call.Answer

/-- A store and its clients. -/
structure System (σ : Type) where
  store : σ
  clients : List Client := []

/-- A client begins a call or makes the next access of its call. -/
inductive Move where
  | begin (request : Request)
  | advance (client : Nat)

/-- An access that a client made. -/
structure Event (σ : Type) where
  client : Nat
  before : σ
  access : Access

variable {σ : Type} [Storage σ]

namespace Event

def answer (e : Event σ) : Except StoreError e.access.Answer := (e.access.run e.before).1

/-- The store that an access leaves. -/
def after (e : Event σ) : σ := (e.access.run e.before).2

/-- An event writes to a place: it puts a row there, changes it or removes it. -/
def Writes (e : Event σ) (place : Place) : Prop := e.access.Writes place e.answer

end Event

namespace System

/-- Makes a move. A call that is over, or was never begun, makes no access. -/
def move (system : System σ) : Move → Option (Event σ) × System σ
  | .begin request =>
    (none, { system with clients := system.clients ++ [⟨request, request.begin⟩] })
  | .advance client =>
    match system.clients[client]? with
    | some ⟨request, waits access next⟩ =>
      let event : Event σ := ⟨client, system.store, access⟩
      (some event, ⟨event.after, system.clients.set client ⟨request, next event.answer⟩⟩)
    | _ => (none, system)

/-- Makes moves one after another. -/
def run : List Move → System σ → List (Event σ) × System σ
  | [], system => ([], system)
  | move :: rest, system =>
    let (event, system) := system.move move
    let (events, system) := run rest system
    (event.toList ++ events, system)

end System

/-- The clients after one more has begun a call. -/
theorem of_getElem?_concat {clients : List Client} {new c : Client} {i : Nat}
    (present : (clients ++ [new])[i]? = some c) : clients[i]? = some c ∨ c = new := by
  rcases Nat.lt_trichotomy i clients.length with old | last | beyond
  · rw [List.getElem?_append_left old] at present
    exact .inl present
  · rw [last, List.getElem?_concat_length] at present
    exact .inr (Option.some.inj present).symm
  · rw [List.getElem?_eq_none (by rw [List.length_append]; exact beyond)] at present
    cases present

/-- The clients after one of them has made its next access. -/
theorem of_getElem?_set {clients : List Client} {old new c : Client} {i j : Nat}
    (there : clients[j]? = some old) (present : (clients.set j new)[i]? = some c) :
    i = j ∧ c = new ∨ i ≠ j ∧ clients[i]? = some c := by
  by_cases same : i = j
  · subst same
    rw [List.getElem?_set_self (List.getElem?_eq_some_iff.mp there).1] at present
    exact .inl ⟨rfl, (Option.some.inj present).symm⟩
  · rw [List.getElem?_set_ne (Ne.symm same)] at present
    exact .inr ⟨same, present⟩

/-! ### What clients hold -/

section Kept

variable [Sound σ] [Revised σ]

/-- The clients of a system hold stamps that were given out, each to one of them, and that no row
has borne. -/
structure System.IsKept (system : System σ) (held : Nat → Option Stamp) (spent : Stamp → Prop) :
    Prop where
  sound : isSound system.store
  keeps : ∀ (client : Nat) (c : Client), system.clients[client]? = some c →
    c.pending.Keeps (held client)
  own : ∀ client other stamp, held client = some stamp → held other = some stamp → client = other
  unspent : ∀ client stamp, held client = some stamp → ¬ spent stamp
  given : ∀ stamp, (spent stamp ∨ ∃ client, held client = some stamp) →
    stamp.modSeq ≤ (view system.store).highestModSeq stamp.mailbox
  rows : ∀ place r, (view system.store).revisionAt place = some r → spent ⟨place.mailbox, r.modSeq⟩

/-- An event leaves a place that it writes to without a row or with a stamp that is not spent, and
leaves every other place as it is. -/
structure Event.IsFresh (e : Event σ) (spent : Stamp → Prop) : Prop where
  kept : ∀ place, ¬ e.Writes place →
    (view e.after).revisionAt place = (view e.before).revisionAt place
  fresh : ∀ place, e.Writes place → ∀ r, (view e.after).revisionAt place = some r →
    ¬ spent ⟨place.mailbox, r.modSeq⟩

/-- A system of an empty store without clients. -/
theorem System.isKept_start {store : σ} (sound : isSound store)
    (empty : ∀ place, (view store).revisionAt place = none) :
    System.IsKept ⟨store, []⟩ (fun _ => none) (fun _ => False) where
  sound := sound
  keeps _ _ present := by cases present
  own _ _ _ holding := by cases holding
  unspent _ _ holding := by cases holding
  given _ := by
    rintro (used | ⟨_, holding⟩)
    · exact used.elim
    · cases holding
  rows place r found := by
    rw [empty] at found
    cases found

/-- Events that follow each other from a store on, each fresh with regard to the stamps that were
spent before it. All stamps of rows are spent. -/
inductive Traced : (Stamp → Prop) → σ → List (Event σ) → Prop where
  | nil (spent : Stamp → Prop) (store : σ) : Traced spent store []
  | cons {spent spent' : Stamp → Prop} (e : Event σ) {later : List (Event σ)}
    (sound : isSound e.before)
    (rows : ∀ place r, (view e.before).revisionAt place = some r →
      spent ⟨place.mailbox, r.modSeq⟩)
    (fresh : e.IsFresh spent) (grows : ∀ stamp, spent stamp → spent' stamp)
    (rest : Traced spent' e.after later) : Traced spent e.before (e :: later)

/-! ### Rows along a run -/

namespace Traced

variable {spent : Stamp → Prop} {store : σ} {front back : List (Event σ)} {place : Place}
  {e : Event σ}

/-- What comes after some events follows a store as well. -/
theorem drop (traced : Traced spent store (front ++ back)) :
    ∃ spent' store', Traced spent' store' back := by
  induction front generalizing spent store with
  | nil => exact ⟨spent, store, traced⟩
  | cons first rest ih =>
    cases traced with
    | cons e sound rows fresh grows later => exact ih later

/-- A stamp that is spent and is not on the row of a place never comes back there. -/
theorem gone (traced : Traced spent store (front ++ e :: back)) {modSeq : ModSeq}
    (used : spent ⟨place.mailbox, modSeq⟩)
    (absent : ∀ r, (view store).revisionAt place = some r → r.modSeq ≠ modSeq) :
    ∀ r, (view e.before).revisionAt place = some r → r.modSeq ≠ modSeq := by
  induction front generalizing spent store with
  | nil =>
    cases traced with
    | cons e sound rows fresh grows later => exact absent
  | cons first rest ih =>
    cases traced with
    | cons _ sound rows fresh grows later =>
      refine ih later (grows _ used) fun r found same => ?_
      by_cases writes : first.Writes place
      · exact fresh.fresh place writes r found (same ▸ used)
      · rw [fresh.kept place writes] at found
        exact absent r found same

/-- A row that bears the same stamp at the start and before an event was not written to in between.
-/
theorem unwritten (traced : Traced spent store (front ++ e :: back)) {r r' : Revision}
    (first : (view store).revisionAt place = some r)
    (last : (view e.before).revisionAt place = some r') (same : r'.modSeq = r.modSeq) :
    (∀ other ∈ front, ¬ other.Writes place) ∧ (view e.before).revisionAt place = some r := by
  induction front generalizing spent store with
  | nil =>
    cases traced with
    | cons e sound rows fresh grows later => exact ⟨List.forall_mem_nil _, first⟩
  | cons other rest ih =>
    cases traced with
    | cons _ sound rows fresh grows later =>
      have used : spent ⟨place.mailbox, r.modSeq⟩ := rows place r first
      by_cases writes : other.Writes place
      · have absent : ∀ left, (view other.after).revisionAt place = some left →
            left.modSeq ≠ r.modSeq := by
          intro left found again
          rw [← again] at used
          exact fresh.fresh place writes left found used
        exact absurd same (later.gone (grows _ used) absent r' last)
      · obtain ⟨spared, reached⟩ := ih later ((fresh.kept place writes).trans first)
        refine ⟨fun event member => ?_, reached⟩
        rcases List.mem_cons.mp member with rfl | member
        · exact writes
        · exact spared event member

/-- Before each event the store is sound. -/
theorem sound_before (traced : Traced spent store (front ++ e :: back)) : isSound e.before := by
  obtain ⟨_, _, rest⟩ := traced.drop
  cases rest with
  | cons e sound rows fresh grows later => exact sound

end Traced

/-! ### Moves -/

variable [Truthful σ] [PureReads σ] {held : Nat → Option Stamp} {spent : Stamp → Prop}
  {system : System σ}

/-- What clients hold after one of them has made an access. -/
def heldAfter (held : Nat → Option Stamp) (client : Nat) (holds : Option Stamp) (other : Nat) :
    Option Stamp := if other = client then holds else held other

/-- The stamps that are spent after an access of a client. What the client no longer holds counts as
spent, whether or not it was written. -/
def spentAfter (spent : Stamp → Prop) (before holds : Option Stamp) (stamp : Stamp) : Prop :=
  spent stamp ∨ before = some stamp ∧ holds ≠ some stamp

section After

variable (kept : system.IsKept held spent) {client : Nat} {access : Access}
  {answer : Except StoreError access.Answer} {v : View}
  (effect : access.Effect (held client) answer (view system.store) v)

include kept effect

omit [Truthful σ] [PureReads σ]

/-- A client holds what it held before, or a stamp that no client has held. -/
theorem System.IsKept.held_or_new {stamp : Stamp}
    (holding : access.holds (held client) answer = some stamp) :
    held client = some stamp ∨ (∀ other, held other ≠ some stamp) ∧ ¬ spent stamp := by
  refine (effect.given stamp holding).imp id fun fresh => ⟨fun other holding => ?_, fun used => ?_⟩
  · exact absurd fresh.1 (Nat.not_lt.mpr (kept.given stamp (.inr ⟨other, holding⟩)))
  · exact absurd fresh.1 (Nat.not_lt.mpr (kept.given stamp (.inl used)))

/-- Each stamp is still held by one client at most. -/
theorem System.IsKept.own_after (one other : Nat) (stamp : Stamp)
    (holdsOne : heldAfter held client (access.holds (held client) answer) one = some stamp)
    (holdsOther : heldAfter held client (access.holds (held client) answer) other = some stamp) :
    one = other := by
  unfold heldAfter at holdsOne holdsOther
  split at holdsOne
  · rename_i isOne
    split at holdsOther
    · rename_i isOther
      exact isOne.trans isOther.symm
    · rcases kept.held_or_new effect holdsOne with before | ⟨new, -⟩
      · exact isOne.trans (kept.own client other stamp before holdsOther)
      · exact absurd holdsOther (new other)
  · split at holdsOther
    · rename_i isOther
      rcases kept.held_or_new effect holdsOther with before | ⟨new, -⟩
      · exact (kept.own one client stamp holdsOne before).trans isOther.symm
      · exact absurd holdsOne (new one)
    · exact kept.own one other stamp holdsOne holdsOther

/-- No stamp is held that is spent. -/
theorem System.IsKept.unspent_after (other : Nat) (stamp : Stamp)
    (holding : heldAfter held client (access.holds (held client) answer) other = some stamp) :
    ¬ spentAfter spent (held client) (access.holds (held client) answer) stamp := by
  unfold heldAfter at holding
  rintro (used | ⟨before, gone⟩)
  · split at holding
    · rcases kept.held_or_new effect holding with before | ⟨-, unspent⟩
      · exact kept.unspent client stamp before used
      · exact unspent used
    · exact kept.unspent other stamp holding used
  · split at holding
    · exact gone holding
    · rename_i different
      exact different (kept.own other client stamp holding before)

/-- Stamps that are held or spent have been given out. -/
theorem System.IsKept.given_after (stamp : Stamp)
    (known : spentAfter spent (held client) (access.holds (held client) answer) stamp ∨
      ∃ other, heldAfter held client (access.holds (held client) answer) other = some stamp) :
    stamp.modSeq ≤ v.highestModSeq stamp.mailbox := by
  have old (earlier : spent stamp ∨ ∃ other, held other = some stamp) :
      stamp.modSeq ≤ v.highestModSeq stamp.mailbox :=
    Nat.le_trans (kept.given stamp earlier) (effect.highest _)
  rcases known with (used | ⟨before, -⟩) | ⟨other, holding⟩
  · exact old (.inl used)
  · exact old (.inr ⟨client, before⟩)
  · unfold heldAfter at holding
    split at holding
    · rcases effect.given stamp holding with before | ⟨-, reached⟩
      · exact old (.inr ⟨client, before⟩)
      · exact reached
    · exact old (.inr ⟨other, holding⟩)

/-- Rows bear stamps that are spent. -/
theorem System.IsKept.rows_after (place : Place) (r : Revision)
    (found : v.revisionAt place = some r) :
    spentAfter spent (held client) (access.holds (held client) answer)
      ⟨place.mailbox, r.modSeq⟩ := by
  by_cases writes : access.Writes place answer
  · obtain ⟨before, gone⟩ := effect.written place writes r found
    refine .inr ⟨before, ?_⟩
    rw [gone]
    exact nofun
  · rw [effect.kept place writes] at found
    exact .inl (kept.rows place r found)

end After

/-- The event of a client's next access is fresh, and the clients go on as kept. -/
theorem System.IsKept.advance (kept : system.IsKept held spent) {client : Nat} {request : Request}
    {access : Access} {next : Except StoreError access.Answer → Pending request.call.Answer}
    (waiting : system.clients[client]? = some ⟨request, waits access next⟩) :
    let event : Event σ := ⟨client, system.store, access⟩
    event.IsFresh spent ∧ ∃ held' spent', (∀ stamp, spent stamp → spent' stamp) ∧
      System.IsKept ⟨event.after, system.clients.set client ⟨request, next event.answer⟩⟩
        held' spent' := by
  intro event
  obtain ⟨allowed, later⟩ := kept.keeps client _ waiting
  obtain ⟨sound, effect⟩ := access_effect allowed kept.sound
  constructor
  · refine ⟨effect.kept, fun place writes r found => ?_⟩
    exact kept.unspent client _ (effect.written place writes r found).1
  · refine ⟨heldAfter held client (access.holds (held client) event.answer),
      spentAfter spent (held client) (access.holds (held client) event.answer), fun _ => .inl, ?_⟩
    refine ⟨sound, fun other c present => ?_, kept.own_after effect, kept.unspent_after effect,
      kept.given_after effect, kept.rows_after effect⟩
    unfold heldAfter
    rcases of_getElem?_set waiting present with ⟨rfl, rfl⟩ | ⟨different, present⟩
    · rw [if_pos rfl]
      exact later event.answer
    · rw [if_neg different]
      exact kept.keeps other c present

omit [Truthful σ] [PureReads σ] in
/-- A client that begins a call holds what it held before. -/
theorem System.IsKept.begin (kept : system.IsKept held spent) (request : Request) :
    System.IsKept { system with clients := system.clients ++ [⟨request, request.begin⟩] }
      held spent where
  sound := kept.sound
  keeps client c present := by
    rcases of_getElem?_concat present with present | rfl
    · exact kept.keeps client c present
    · exact begin_keeps request _
  own := kept.own
  unspent := kept.unspent
  given := kept.given
  rows := kept.rows

/-- The events of a run follow each other so. -/
theorem System.IsKept.traced (kept : system.IsKept held spent) (moves : List Move) :
    Traced spent system.store (System.run moves system).1 := by
  induction moves generalizing system held spent with
  | nil => exact .nil spent system.store
  | cons move rest ih =>
    cases move with
    | begin request => exact ih (kept.begin request)
    | advance client =>
      unfold System.run System.move
      simp only
      rcases waiting : system.clients[client]? with _ | ⟨request, outcome | ⟨access, next⟩⟩
      · exact ih kept
      · exact ih kept
      · obtain ⟨fresh, held', spent', grows, kept'⟩ := kept.advance waiting
        exact .cons ⟨client, system.store, access⟩ kept.sound kept.rows fresh grows (ih kept')

end Kept

end Mailroom.Interleaving
