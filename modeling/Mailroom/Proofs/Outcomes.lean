import Mailroom.Error
/-!
Computing a list of outcomes, of which the first error counts.
-/

namespace Mailroom.Outcomes

variable {ε α β : Type}

@[simp] theorem ok_bind {a : α} {f : α → Except ε β} : (Except.ok a >>= f) = f a := rfl

@[simp] theorem error_bind {e : ε} {f : α → Except ε β} : (Except.error e >>= f) = .error e := rfl

/-- A computation answers if its first part does and, after that, the rest. -/
theorem bind_eq_ok {x : Except ε α} {f : α → Except ε β} {b : β} :
    (x >>= f) = .ok b ↔ ∃ a, x = .ok a ∧ f a = .ok b := by
  cases x <;> simp

variable {f : α → Except ε β}

/-- If every outcome is an answer, the answers are collected. -/
theorem mapM_of_forall_ok {g : α → β} {xs : List α} (all : ∀ x ∈ xs, f x = .ok (g x)) :
    xs.mapM f = .ok (xs.map g) := by
  induction xs with
  | nil => rfl
  | cons x xs ih =>
    rw [List.mapM_cons, all x List.mem_cons_self,
      ih fun y member => all y (List.mem_cons_of_mem _ member)]
    rfl

/-- Answers that are given are collected as they are. -/
theorem mapM_ok (xs : List α) : xs.mapM (.ok : α → Except ε α) = .ok xs := by
  have same : xs.mapM (.ok : α → Except ε α) = .ok (xs.map id) := mapM_of_forall_ok fun _ _ => rfl
  rwa [List.map_id] at same

/-- Only what is done with the members of a list counts. -/
theorem mapM_congr {g : α → Except ε β} {xs : List α} (same : ∀ x ∈ xs, f x = g x) :
    xs.mapM f = xs.mapM g := by
  induction xs with
  | nil => rfl
  | cons x xs ih =>
    rw [List.mapM_cons, List.mapM_cons, same x List.mem_cons_self,
      ih fun y member => same y (List.mem_cons_of_mem _ member)]

/-- What is found at each member is collected. -/
theorem mapM_filterMap {γ : Type} {g : γ → Option α} {h : γ → Option β}
    (each : ∀ x, (g x).mapM f = .ok (h x)) (xs : List γ) :
    (xs.filterMap g).mapM f = .ok (xs.filterMap h) := by
  induction xs with
  | nil => rfl
  | cons x xs ih =>
    have here := each x
    rw [List.filterMap_cons, List.filterMap_cons]
    cases found : g x with
    | none =>
      rw [found] at here
      rw [← Except.ok.inj here]
      exact ih
    | some a =>
      rw [found] at here
      have here : some <$> f a = .ok (h x) := here
      cases outcome : f a with
      | error e =>
        rw [outcome] at here
        cases here
      | ok b =>
        rw [outcome] at here
        show (a :: xs.filterMap g).mapM f = _
        rw [← Except.ok.inj here, List.mapM_cons, outcome, ih]
        rfl

/-- If some outcome is an error, there is an error. -/
theorem mapM_of_mem_error {xs : List α} {x : α} {e : ε} (member : x ∈ xs) (fails : f x = .error e) :
    ∃ e, xs.mapM f = .error e := by
  induction xs with
  | nil => cases member
  | cons y xs ih =>
    rw [List.mapM_cons]
    cases first : f y with
    | error e => exact ⟨e, rfl⟩
    | ok b =>
      rcases List.mem_cons.mp member with rfl | later
      · rw [first] at fails
        cases fails
      · obtain ⟨e, rest⟩ := ih later
        exact ⟨e, by rw [rest]; rfl⟩

/-- An error comes from an element. -/
theorem exists_of_mapM_eq_error {xs : List α} {e : ε} (fails : xs.mapM f = .error e) :
    ∃ x ∈ xs, f x = .error e := by
  induction xs with
  | nil => cases fails
  | cons x xs ih =>
    rw [List.mapM_cons] at fails
    cases first : f x with
    | error e' =>
      rw [first] at fails
      cases fails
      exact ⟨x, List.mem_cons_self, first⟩
    | ok b =>
      cases rest : xs.mapM f with
      | error e' =>
        rw [first, rest] at fails
        cases fails
        obtain ⟨y, member, fails⟩ := ih rest
        exact ⟨y, List.mem_cons_of_mem _ member, fails⟩
      | ok bs =>
        rw [first, rest] at fails
        cases fails

/-- Answers come from the elements, each from its own. -/
theorem mem_of_mapM_eq_ok {xs : List α} {ys : List β} (done : xs.mapM f = .ok ys) :
    (∀ y ∈ ys, ∃ x ∈ xs, f x = .ok y) ∧ ∀ x ∈ xs, ∃ y ∈ ys, f x = .ok y := by
  induction xs generalizing ys with
  | nil =>
    cases done
    simp
  | cons x xs ih =>
    rw [List.mapM_cons] at done
    cases first : f x with
    | error e =>
      rw [first] at done
      cases done
    | ok b =>
      cases rest : xs.mapM f with
      | error e =>
        rw [first, rest] at done
        cases done
      | ok bs =>
        rw [first, rest] at done
        cases done
        obtain ⟨back, forth⟩ := ih rest
        constructor
        · intro y member
          rcases List.mem_cons.mp member with rfl | later
          · exact ⟨x, List.mem_cons_self, first⟩
          · obtain ⟨z, found, answer⟩ := back y later
            exact ⟨z, List.mem_cons_of_mem _ found, answer⟩
        · intro z member
          rcases List.mem_cons.mp member with rfl | later
          · exact ⟨b, List.mem_cons_self, first⟩
          · obtain ⟨y, found, answer⟩ := forth z later
            exact ⟨y, List.mem_cons_of_mem _ found, answer⟩

theorem length_of_mapM_eq_ok {xs : List α} {ys : List β} (done : xs.mapM f = .ok ys) :
    ys.length = xs.length := by
  induction xs generalizing ys with
  | nil =>
    cases done
    rfl
  | cons x xs ih =>
    rw [List.mapM_cons] at done
    cases first : f x with
    | error e =>
      rw [first] at done
      cases done
    | ok b =>
      cases rest : xs.mapM f with
      | error e =>
        rw [first, rest] at done
        cases done
      | ok bs =>
        rw [first, rest] at done
        cases done
        rw [List.length_cons, List.length_cons, ih rest]

/-- Computing in two rounds, of which the first succeeds everywhere. -/
theorem mapM_bind_mapM {γ : Type} {g : β → Except ε γ} {h : α → Except ε γ} {xs : List α}
    (all : ∀ x ∈ xs, ∃ b, f x = .ok b ∧ h x = g b) :
    (xs.mapM f >>= fun bs => bs.mapM g) = xs.mapM h := by
  induction xs with
  | nil => rfl
  | cons x xs ih =>
    obtain ⟨b, first, same⟩ := all x List.mem_cons_self
    have rest := ih fun y member => all y (List.mem_cons_of_mem _ member)
    rw [List.mapM_cons, List.mapM_cons, first, same, ← rest]
    cases firsts : xs.mapM f with
    | error e =>
      obtain ⟨y, member, fails⟩ := exists_of_mapM_eq_error firsts
      obtain ⟨_, answer, _⟩ := all y (List.mem_cons_of_mem _ member)
      rw [answer] at fails
      cases fails
    | ok bs =>
      show List.mapM g (b :: bs) = _
      rw [List.mapM_cons]
      rfl

/-- What answers and their elements have in common, in the order of the elements. -/
theorem map_of_mapM_eq_ok {γ : Type} {g : β → γ} {h : α → γ} {xs : List α} {ys : List β}
    (keeps : ∀ x ∈ xs, ∀ y, f x = .ok y → g y = h x) (done : xs.mapM f = .ok ys) :
    ys.map g = xs.map h := by
  induction xs generalizing ys with
  | nil =>
    cases done
    rfl
  | cons x xs ih =>
    rw [List.mapM_cons] at done
    obtain ⟨b, first, done⟩ := bind_eq_ok.mp done
    obtain ⟨bs, rest, done⟩ := bind_eq_ok.mp done
    cases done
    rw [List.map_cons, List.map_cons, keeps x List.mem_cons_self b first,
      ih (fun y member => keeps y (List.mem_cons_of_mem _ member)) rest]

/-- Computing only the elements that are chosen, when a choice of the answers tells which. -/
theorem mapM_filter_of_eq_ok {p : α → Bool} {q : β → Bool} {xs : List α} {ys : List β}
    (same : ∀ x ∈ xs, ∀ y, f x = .ok y → q y = p x) (done : xs.mapM f = .ok ys) :
    (xs.filter p).mapM f = .ok (ys.filter q) := by
  induction xs generalizing ys with
  | nil =>
    cases done
    rfl
  | cons x xs ih =>
    rw [List.mapM_cons] at done
    obtain ⟨b, first, done⟩ := bind_eq_ok.mp done
    obtain ⟨bs, rest, done⟩ := bind_eq_ok.mp done
    cases done
    have later := ih (fun y member => same y (List.mem_cons_of_mem _ member)) rest
    rw [List.filter_cons, List.filter_cons, same x List.mem_cons_self b first]
    split
    · rw [List.mapM_cons, first, later]
      rfl
    · exact later

/-- The answers at the front are those of the elements at the front. -/
theorem mapM_take_of_eq_ok {xs : List α} {ys : List β} (done : xs.mapM f = .ok ys) (n : Nat) :
    (xs.take n).mapM f = .ok (ys.take n) := by
  induction xs generalizing ys n with
  | nil =>
    rw [List.mapM_nil] at done
    cases done
    rw [List.take_nil, List.take_nil]
    rfl
  | cons x xs ih =>
    rw [List.mapM_cons] at done
    obtain ⟨b, first, done⟩ := bind_eq_ok.mp done
    obtain ⟨bs, rest, done⟩ := bind_eq_ok.mp done
    cases done
    cases n with
    | zero => rfl
    | succ n =>
      rw [List.take_succ_cons, List.mapM_cons, first, ih rest n]
      rfl

/-- Computing two lists one after the other. -/
theorem mapM_append_eq_ok {xs ys : List α} {bs : List β} :
    (xs ++ ys).mapM f = .ok bs ↔
      ∃ cs ds, xs.mapM f = .ok cs ∧ ys.mapM f = .ok ds ∧ bs = cs ++ ds := by
  rw [List.mapM_append, bind_eq_ok]
  refine exists_congr fun cs => ?_
  rw [bind_eq_ok]
  constructor
  · rintro ⟨first, ds, second, done⟩
    cases done
    exact ⟨ds, first, second, rfl⟩
  · rintro ⟨ds, first, second, rfl⟩
    exact ⟨first, ds, second, rfl⟩

end Mailroom.Outcomes
