import Mailroom.Step
/-!
How steps run: a check that succeeds is passed, one that fails ends the step, and a write changes
the store only if it succeeds.
-/

namespace Mailroom.Step

variable {σ α β : Type} {store : σ}

@[simp] theorem check_ok_bind {a : α} {next : α → Step σ β} :
    (check (.ok a) >>= next : Step σ β) = next a := rfl

@[simp] theorem check_error_bind {e : StoreError} {next : α → Step σ β} :
    (check (.error e) >>= next : Step σ β) = fail e := rfl

theorem read_eq {f : σ → Except StoreError α} : (read f) store = (f store, store) := rfl

theorem read_of_error {f : σ → Except StoreError α} {e : StoreError} (fails : f store = .error e) :
    (read f) store = (.error e, store) := Prod.ext fails rfl

theorem write_of_ok {f : σ → Except StoreError (α × σ)} {a : α} {after : σ}
    (done : f store = .ok (a, after)) : (write f) store = (.ok a, after) := by
  simp [write, done]

theorem write_of_error {f : σ → Except StoreError (α × σ)} {e : StoreError}
    (fails : f store = .error e) : (write f) store = (.error e, store) := by
  simp [write, fails]

theorem bind_of_ok {first : Step σ α} {next : α → Step σ β} {a : α} {after : σ}
    (done : first store = (.ok a, after)) : (first >>= next : Step σ β) store = next a after := by
  show Step.bind first next store = _
  simp [Step.bind, done]

theorem bind_of_error {first : Step σ α} {next : α → Step σ β} {e : StoreError} {after : σ}
    (fails : first store = (.error e, after)) :
    (first >>= next : Step σ β) store = (.error e, after) := by
  show Step.bind first next store = _
  simp [Step.bind, fails]

/-- A step that answers has answered in its first part and then in the rest. -/
theorem of_bind_eq_ok {first : Step σ α} {next : α → Step σ β} {b : β} {after : σ}
    (done : (first >>= next : Step σ β) store = (.ok b, after)) :
    ∃ a middle, first store = (.ok a, middle) ∧ next a middle = (.ok b, after) := by
  rcases started : first store with ⟨_ | a, middle⟩
  · rw [bind_of_error started] at done
    cases done
  · rw [bind_of_ok started] at done
    exact ⟨a, middle, rfl, done⟩

theorem of_write_eq_ok {f : σ → Except StoreError (α × σ)} {a : α} {after : σ}
    (done : (write f) store = (.ok a, after)) : f store = .ok (a, after) := by
  cases outcome : f store with
  | error e =>
    rw [write_of_error outcome] at done
    cases done
  | ok answer =>
    rw [write_of_ok outcome] at done
    cases done
    rfl

theorem of_write_eq_error {f : σ → Except StoreError (α × σ)} {e : StoreError} {after : σ}
    (fails : (write f) store = (.error e, after)) : after = store := by
  cases outcome : f store with
  | error e' =>
    rw [write_of_error outcome] at fails
    cases fails
    rfl
  | ok answer =>
    rw [write_of_ok outcome] at fails
    cases fails

/-- A step that does not answer fails. -/
theorem exists_error {step : Step σ α} (noAnswer : (step store).1.toOption.isNone = true) :
    ∃ e after, step store = (.error e, after) := by
  rcases ran : step store with ⟨e | a, after⟩
  · exact ⟨e, after, rfl⟩
  · rw [ran] at noAnswer
    cases noAnswer

end Mailroom.Step
