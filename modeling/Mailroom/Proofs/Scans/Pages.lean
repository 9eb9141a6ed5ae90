import Mailroom.Error
/-!
Pages of rows that are written in between.

A page holds the first rows past a cursor that match, as the store stands when the page is fetched
(`IsPage`). A read asks for a page with the last number of the pages before it as the cursor
(`Paged`). So numbers ascend over all pages, and a number that matches whenever a page is fetched is
on one of them or lies past them all (`Paged.covers`); if the last page was short it is on one of
them (`Paged.covers_of_short`).
-/

namespace Mailroom

variable {σ τ : Type}

/-- The numbers of a page: the first ones past a cursor that match. -/
structure IsPage (Matches : Uid → Prop) (after : Option Uid) (limit : Nat) (uids : List Uid) :
    Prop where
  ascending : uids.Pairwise (· < ·)
  matching : ∀ uid ∈ uids, Matches uid ∧ ∀ cursor ∈ after, cursor < uid
  length_le : uids.length ≤ limit
  /-- What is left out comes after a full page. -/
  full : ∀ uid, Matches uid → (∀ cursor ∈ after, cursor < uid) →
    uid ∈ uids ∨ uids.length = limit ∧ ∀ other ∈ uids, other < uid

/-- The first of all numbers that match make up a page. -/
theorem IsPage.of_take {Matches : Uid → Prop} {after : Option Uid} {all : List Uid} (limit : Nat)
    (ascending : all.Pairwise (· < ·))
    (exact : ∀ uid, uid ∈ all ↔ Matches uid ∧ ∀ cursor ∈ after, cursor < uid) :
    IsPage Matches after limit (all.take limit) where
  ascending := ascending.sublist (List.take_sublist _ _)
  matching uid member := (exact uid).mp (List.mem_of_mem_take member)
  length_le := List.length_take_le _ _
  full uid isMatch past := by
    have member := (exact uid).mpr ⟨isMatch, past⟩
    rw [← List.take_append_drop limit all, List.pairwise_append] at ascending
    rw [← List.take_append_drop limit all] at member
    refine (List.mem_append.mp member).imp id fun later => ⟨?_, fun other first => ?_⟩
    · have room : limit < all.length := by
        have := List.length_pos_of_mem later
        rw [List.length_drop] at this
        omega
      rw [List.length_take, Nat.min_eq_left (Nat.le_of_lt room)]
    · exact ascending.2.2 other first uid later

/-- A page that was fetched: from which store, past which cursor, how many rows were asked for, and
what the answer was. -/
structure Fetched (σ τ : Type) where
  store : σ
  after : Option Uid
  limit : Nat
  answer : Except StoreError (List τ)

/-- The rows of a page; one that could not be read has none. -/
def Fetched.rows (page : Fetched σ τ) : List τ :=
  match page.answer with
  | .ok rows => rows
  | .error _ => []

/-- The rows of several pages. -/
def rowsOf (fetched : List (Fetched σ τ)) : List τ := fetched.flatMap Fetched.rows

theorem rowsOf_concat (fetched : List (Fetched σ τ)) (page : Fetched σ τ) :
    rowsOf (fetched ++ [page]) = rowsOf fetched ++ page.rows := by
  rw [rowsOf, List.flatMap_append, List.flatMap_singleton]
  rfl

/-- A page among some and one more is the last one, or it is among the others. -/
theorem split_concat {α : Type} {xs before after : List α} {x y : α}
    (split : xs ++ [x] = before ++ y :: after) :
    before = xs ∧ y = x ∨ ∃ later, xs = before ++ y :: later := by
  rcases List.eq_nil_or_concat after with rfl | ⟨later, last, rfl⟩
  · obtain ⟨rfl, same⟩ := List.append_inj' split rfl
    exact .inl ⟨rfl, (List.singleton_inj.mp same).symm⟩
  · rw [List.concat_eq_append, ← List.cons_append, ← List.append_assoc] at split
    exact .inr ⟨later, (List.append_inj' split rfl).1⟩

/-- The last page is short: it holds fewer rows than were asked for. -/
def EndsShort (fetched : List (Fetched σ τ)) : Prop :=
  ∃ page rows, fetched.getLast? = some page ∧ page.answer = .ok rows ∧ rows.length < page.limit

/-- The last row of some pages has the cursor for the next. -/
def lastUid? (key : τ → Uid) (rows : List τ) : Option Uid := rows.getLast?.map key

/-- Pages that were asked for one after another. -/
inductive Paged (key : τ → Uid) (Matches : σ → Uid → Prop) : List (Fetched σ τ) → Prop where
  | start : Paged key Matches []
  | next {fetched : List (Fetched σ τ)} {page : Fetched σ τ} (before : Paged key Matches fetched)
    (after : page.after = lastUid? key (rowsOf fetched))
    (isPage : ∀ rows, page.answer = .ok rows →
      IsPage (Matches page.store) page.after page.limit (rows.map key)) :
    Paged key Matches (fetched ++ [page])

namespace Paged

variable {key : τ → Uid} {Matches : σ → Uid → Prop} {fetched : List (Fetched σ τ)} {uid : Uid}

/-- No number of an ascending list is greater than the last one. -/
theorem le_lastUid {rows : List τ} (ascending : (rows.map key).Pairwise (· < ·))
    (member : uid ∈ rows.map key) : ∃ cursor ∈ lastUid? key rows, uid ≤ cursor := by
  rcases List.eq_nil_or_concat rows with rfl | ⟨init, last, rfl⟩
  · cases member
  · rw [List.concat_eq_append] at member ascending ⊢
    refine ⟨key last, by simp [lastUid?], ?_⟩
    rw [List.map_append, List.pairwise_append] at ascending
    rw [List.map_append, List.mem_append] at member
    rcases member with earlier | isLast
    · exact Nat.le_of_lt (ascending.2.2 uid earlier (key last) (List.mem_singleton_self _))
    · exact Nat.le_of_eq (List.mem_singleton.mp isLast)

/-- The rows of the next page come after those of the pages before it. -/
theorem lt_of_next {page : Fetched σ τ} (ascending : ((rowsOf fetched).map key).Pairwise (· < ·))
    (after : page.after = lastUid? key (rowsOf fetched))
    (past : ∀ cursor ∈ page.after, cursor < uid) {other : Uid}
    (member : other ∈ (rowsOf fetched).map key) : other < uid := by
  obtain ⟨cursor, isLast, reached⟩ := le_lastUid ascending member
  exact Nat.lt_of_le_of_lt reached (past cursor (after ▸ isLast))

/-- The numbers of all pages ascend. -/
theorem ascending (paged : Paged key Matches fetched) :
    ((rowsOf fetched).map key).Pairwise (· < ·) := by
  induction paged with
  | start => exact .nil
  | @next fetched page _ after isPage ih =>
    rw [rowsOf_concat, List.map_append, List.pairwise_append]
    unfold Fetched.rows
    split
    · rename_i rows answered
      have isPage := isPage rows answered
      refine ⟨ih, isPage.ascending, fun other member uid onPage => ?_⟩
      exact lt_of_next ih after (isPage.matching uid onPage).2 member
    · exact ⟨ih, .nil, fun _ _ _ => nofun⟩

/-- The rows of a page matched when it was fetched. -/
theorem matches_of_mem (paged : Paged key Matches fetched) {page : Fetched σ τ}
    (member : page ∈ fetched) {row : τ} (onPage : row ∈ page.rows) :
    Matches page.store (key row) := by
  induction paged with
  | start => cases member
  | next _ _ isPage ih =>
    rcases List.mem_append.mp member with earlier | isLast
    · exact ih earlier
    · cases List.mem_singleton.mp isLast
      unfold Fetched.rows at onPage
      split at onPage
      · rename_i rows answered
        exact ((isPage rows answered).matching _ (List.mem_map_of_mem onPage)).1
      · cases onPage

/-- A number that lies past the pages before is on the next page or past it. -/
theorem next_covers {page : Fetched σ τ} (after : page.after = lastUid? key (rowsOf fetched))
    {rows : List τ} (isPage : IsPage (Matches page.store) page.after page.limit (rows.map key))
    (isMatch : Matches page.store uid) (past : ∀ other ∈ (rowsOf fetched).map key, other < uid) :
    uid ∈ rows.map key ∨ rows.length = page.limit ∧ ∀ other ∈ rows.map key, other < uid := by
  rw [← List.length_map key]
  refine isPage.full uid isMatch fun cursor isCursor => past cursor ?_
  rw [after] at isCursor
  obtain ⟨last, found, rfl⟩ := Option.map_eq_some_iff.mp isCursor
  exact List.mem_map_of_mem (List.mem_of_getLast? found)

/-- A number that matches whenever a page is fetched is on a page or past them all. -/
theorem covers (paged : Paged key Matches fetched)
    (isMatch : ∀ page ∈ fetched, Matches page.store uid) :
    uid ∈ (rowsOf fetched).map key ∨ ∀ other ∈ (rowsOf fetched).map key, other < uid := by
  induction paged with
  | start => exact .inr fun _ => nofun
  | @next fetched page _ after isPage ih =>
    rw [rowsOf_concat, List.map_append]
    rcases ih fun page member => isMatch page (List.mem_append_left _ member) with earlier | past
    · exact .inl (List.mem_append_left _ earlier)
    · unfold Fetched.rows
      split
      · rename_i rows answered
        have here := isMatch page (List.mem_append_right _ (List.mem_singleton_self _))
        rcases next_covers after (isPage rows answered) here past with onPage | ⟨-, later⟩
        · exact .inl (List.mem_append_right _ onPage)
        · exact .inr fun other member => (List.mem_append.mp member).elim (past other) (later other)
      · exact .inr fun other member => (List.mem_append.mp member).elim (past other) nofun

/-- Nothing that matches whenever a page is fetched lies past a short page. -/
theorem covers_of_short (paged : Paged key Matches fetched) (short : EndsShort fetched)
    (isMatch : ∀ page ∈ fetched, Matches page.store uid) : uid ∈ (rowsOf fetched).map key := by
  obtain ⟨last, rows, isLast, answered, short⟩ := short
  cases paged with
  | start => cases isLast
  | @next fetched page before after isPage =>
    rw [List.getLast?_concat] at isLast
    cases isLast
    have onlyRows : last.rows = rows := by
      unfold Fetched.rows
      rw [answered]
    rw [rowsOf_concat, onlyRows, List.map_append]
    rcases before.covers fun page member => isMatch page (List.mem_append_left _ member) with
      earlier | past
    · exact List.mem_append_left _ earlier
    · have here := isMatch last (List.mem_append_right _ (List.mem_singleton_self _))
      rcases next_covers after (isPage rows answered) here past with onPage | ⟨full, -⟩
      · exact List.mem_append_right _ onPage
      · exact absurd full (Nat.ne_of_lt short)

end Paged

end Mailroom
