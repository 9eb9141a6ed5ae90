import Mailroom.Error
/-!
Computations over a store. A `Step` takes a store and returns an answer or an error together with
the store it leaves, for a step that fails may have changed the store before.
-/

namespace Mailroom

/-- A computation over a store of type `σ` that may fail. -/
def Step (σ α : Type) : Type := σ → Except StoreError α × σ

namespace Step

variable {σ α β : Type}

/-- Runs a step on a store. -/
def run (step : Step σ α) (store : σ) : Except StoreError α × σ := step store

/-- Answers and leaves the store as it is. -/
protected def pure (a : α) : Step σ α := fun store => (.ok a, store)

/-- Goes on after an answer, on the store that was left; an error ends the computation. -/
protected def bind (first : Step σ α) (next : α → Step σ β) : Step σ β := fun store =>
  match first store with
  | (.ok a, store) => next a store
  | (.error e, store) => (.error e, store)

instance : Monad (Step σ) where
  pure := Step.pure
  bind := Step.bind

/-- Fails and leaves the store as it is. -/
def fail (error : StoreError) : Step σ α := fun store => (.error error, store)

/-- Goes on only if a check succeeds. -/
def check (outcome : Except StoreError α) : Step σ α := fun store => (outcome, store)

/-- A computation that looks at the store and leaves it as it is. -/
def read (f : σ → Except StoreError α) : Step σ α := fun store => (f store, store)

/-- A computation that changes the store only if it succeeds. -/
def write (f : σ → Except StoreError (α × σ)) : Step σ α := fun store =>
  match f store with
  | .ok (a, store) => (.ok a, store)
  | .error e => (.error e, store)

/-- Turns the error of a step into another one. -/
def mapError (f : StoreError → StoreError) (step : Step σ α) : Step σ α := fun store =>
  match step store with
  | (.ok a, store) => (.ok a, store)
  | (.error e, store) => (.error (f e), store)

/-- The outcome of a step as an answer. -/
def attempt (step : Step σ α) : Step σ (Except StoreError α) := fun store =>
  let (outcome, store) := step store
  (.ok outcome, store)

instance : LawfulMonad (Step σ) := LawfulMonad.mk' (Step σ)
  (fun step => by
    funext store
    show Step.bind step (fun a => Step.pure (id a)) store = step store
    unfold Step.bind
    rcases step store with ⟨_ | _, _⟩ <;> rfl)
  (fun _ _ => rfl)
  (fun first next last => by
    funext store
    show Step.bind (Step.bind first next) last store
      = Step.bind first (fun a => Step.bind (next a) last) store
    unfold Step.bind
    rcases first store with ⟨_ | _, _⟩ <;> rfl)

end Step

end Mailroom
