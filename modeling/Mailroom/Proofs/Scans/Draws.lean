import Mailroom.Proofs.Paging
import Mailroom.Proofs.Scans.Reading
/-!
Rows that are drawn from a read in any order of calls.

A caller draws row by row or page by page, and may have the first page fetched beforehand; a page
that is drawn goes past the rows that are held back. The rows of an ascending list are read here, on
a store that is watched, so that every page that was asked for is known. However the calls are
mixed, the pages are the front of the list (`Reached`), and what was delivered and what is held back
are the rows of the pages (`IsDrawn.runAll`). So a read that is drawn to its end delivers each row
up to its limit once, and costs as many pages as its rows fill (`runAll_deliversOnce`).
-/

namespace Mailroom

variable {σ τ : Type}

/-! ### Ascending lists -/

/-- The rows of a list that come after a cursor. -/
def Source.ofList (key : τ → Uid) (xs : List τ) : Source Unit Uid τ where
  key := key
  fetch after limit := pure ((xs.filter fun x => after.all (· < key x)).take limit)

theorem Source.ofList_serves (key : τ → Uid) {xs : List τ}
    (ascending : xs.Pairwise fun x later => key x < key later) :
    (Source.ofList key xs).Serves () xs key .ok where
  first limit := by
    have all : xs.filter (fun x => (none : Option Uid).all (· < key x)) = xs :=
      List.filter_eq_self.mpr fun _ _ => rfl
    simp only [ofList, all, Outcomes.mapM_ok]
    rfl
  later before row after limit split := by
    have past : xs.filter (fun x => (some (key row)).all (· < key x)) = after := by
      subst split
      exact filter_past key ascending
    simp only [ofList, past, Outcomes.mapM_ok]
    rfl
  keeps row member answer answered := by
    cases answered
    rfl

/-! ### Calls of a read -/

/-- A read that rows are drawn from: how far it has come, its store, and what was delivered so
far. -/
structure Drawing (σ τ : Type) where
  paging : Paging Uid τ
  store : σ
  delivered : List (Except StoreError τ) := []

/-- What a caller does next. -/
inductive Draw where
  /-- Asks for the next row. -/
  | next
  /-- Asks for the next page, past the rows that are held back. -/
  | page
  /-- Has the first page fetched. -/
  | prime
deriving DecidableEq

namespace Draw

/-- What a page delivers: its rows, or the error that it could not be read for. -/
def outcomes : Option (Except StoreError (List τ)) → List (Except StoreError τ)
  | none => []
  | some (.ok rows) => rows.map .ok
  | some (.error e) => [.error e]

/-- What the fetching of the first page delivers: nothing, unless it fails. -/
def failure : Except StoreError Unit → List (Except StoreError τ)
  | .ok () => []
  | .error e => [.error e]

/-- Makes a call. -/
def run (source : Source σ Uid τ) (draw : Draw) (r : Drawing σ τ) : Drawing σ τ :=
  match draw with
  | next =>
    let (answer, paging, store) := r.paging.next source r.store
    { paging, store, delivered := r.delivered ++ answer.toList }
  | page =>
    let (answer, paging, store) := r.paging.nextPage source r.store
    { paging, store, delivered := r.delivered ++ outcomes answer }
  | prime =>
    let (answer, paging, store) := r.paging.prime source r.store
    { paging, store, delivered := r.delivered ++ failure answer }

/-- Makes calls one after another. -/
def runAll (source : Source σ Uid τ) (draws : List Draw) (r : Drawing σ τ) : Drawing σ τ :=
  draws.foldl (fun r draw => draw.run source r) r

end Draw

/-- There are no rows to ask for once a read is over and holds nothing back. -/
theorem Draw.runAll_of_over {source : Source σ Uid τ} {r : Drawing σ τ}
    (isOver : r.paging.finished = true) (empty : r.paging.buffer = []) (more : Nat) :
    Draw.runAll source (List.replicate more .next) r = r := by
  have same : Draw.next.run source r = r := by
    rw [run, Paging.next_eq_of_over isOver empty]
    simp only [Option.toList_none, List.append_nil]
  induction more with
  | zero => rfl
  | succ more ih => rw [List.replicate_succ, runAll, List.foldl_cons, same, ← runAll, ih]

/-- The read without the pages. -/
def Drawing.unwatched (r : Drawing (Watched σ τ) τ) : Drawing σ τ :=
  ⟨r.paging, r.store.store, r.delivered⟩

/-- Watching a store changes nothing of a call. -/
theorem Draw.run_unwatched (source : Source σ Uid τ) (draw : Draw) (r : Drawing (Watched σ τ) τ) :
    draw.run source r.unwatched = (draw.run source.watched r).unwatched := by
  cases draw with
  | next => simp only [run, Drawing.unwatched, next_projects (watched_projects source)]
  | page => simp only [run, Drawing.unwatched, nextPage_projects (watched_projects source)]
  | prime => simp only [run, Drawing.unwatched, prime_projects (watched_projects source)]

theorem Draw.runAll_unwatched (source : Source σ Uid τ) (draws : List Draw)
    (r : Drawing (Watched σ τ) τ) :
    Draw.runAll source draws r.unwatched = (Draw.runAll source.watched draws r).unwatched := by
  induction draws generalizing r with
  | nil => rfl
  | cons draw rest ih =>
    simp only [runAll, List.foldl_cons, run_unwatched]
    exact ih _

/-! ### Pages -/

/-- How many pages of a size a read of some rows needs: as many as are filled by the rows that it
is limited to, or, if there are fewer, as the rows fill, and one more that is short. -/
def pagesNeeded (size length : Nat) : Option Nat → Nat
  | none => length / size + 1
  | some limit => if limit ≤ length then (limit + size - 1) / size else length / size + 1

/-- A short page is the one after the pages that are full. -/
theorem pagesNeeded_of_short {size length full : Nat} {limit : Option Nat}
    (within : full * size ≤ length) (short : length < full * size + size)
    (few : ∀ most ∈ limit, length < most) : pagesNeeded size length limit = full + 1 := by
  have filled : length / size = full :=
    Nat.div_eq_of_lt_le within (by rwa [Nat.succ_mul])
  cases limit with
  | none => rw [pagesNeeded, filled]
  | some most => rw [pagesNeeded, if_neg (Nat.not_le.mpr (few most rfl)), filled]

/-- The page that reaches the limit is the one after the pages that do not. -/
theorem pagesNeeded_of_reached {size length full most : Nat} (before : full * size < most)
    (last : most ≤ full * size + size) (many : most ≤ length) :
    pagesNeeded size length (some most) = full + 1 := by
  rw [pagesNeeded, if_pos many]
  refine Nat.div_eq_of_lt_le ?_ ?_
  · rw [Nat.succ_mul]
    omega
  · rw [Nat.succ_mul, Nat.succ_mul]
    omega

/-- The pages that were fetched are the front of the list: as many rows as asked for each, unless
the read is over. -/
structure Reached (key : τ → Uid) (xs : List τ) (size : Nat) (limit : Option Nat)
    (paging : Paging Uid τ) (fetched : List (Fetched Unit τ)) (ahead : List τ) : Prop where
  split : xs = rowsOf fetched ++ ahead
  stands : paging.Stands key (rowsOf fetched) ahead
  batch : paging.batch = size
  remaining : paging.remaining = limit.map (· - (rowsOf fetched).length)
  wanted : cut limit xs = rowsOf fetched ++ cut paging.remaining ahead
  pages : paging.pages = fetched.length
  full : paging.finished = false → (rowsOf fetched).length = fetched.length * size
  counted : paging.finished = true → fetched.length = pagesNeeded size xs.length limit
  sizes : ∀ page ∈ fetched, 1 ≤ page.limit ∧ page.limit ≤ size
  /-- A page is asked for past the last row of the pages before. -/
  cursors : ∀ before page after, fetched = before ++ page :: after →
    page.after = lastUid? key (rowsOf before) ∧ (before ≠ [] → rowsOf before ≠ [])

namespace Reached

variable {key : τ → Uid} {xs ahead : List τ} {size : Nat} {limit : Option Nat}
  {paging : Paging Uid τ} {fetched : List (Fetched Unit τ)}

theorem start (key : τ → Uid) (xs : List τ) (batch : Nat) (limit : Option Nat) :
    Reached key xs (max batch 1) limit (.start batch limit) [] xs where
  split := rfl
  stands := Paging.stands_start batch limit
  batch := rfl
  remaining := by
    cases limit <;> rfl
  wanted := rfl
  pages := rfl
  full _ := by simp [rowsOf]
  counted finished := by
    have none_wanted : limit = some 0 := eq_of_beq finished
    have none_needed : (0 + max batch 1 - 1) / max batch 1 = 0 := Nat.div_eq_of_lt (by omega)
    simp only [none_wanted, pagesNeeded, Nat.zero_le, if_true, none_needed, List.length_nil]
  sizes _ := nofun
  cursors before page after split := by simp at split

/-- What is held back does not matter to what is still to be fetched. -/
theorem buffered (reached : Reached key xs size limit paging fetched ahead) (buffer : List τ) :
    Reached key xs size limit { paging with buffer } fetched ahead :=
  { reached with stands := reached.stands.buffered buffer }

/-- A read that is over has fetched all that it wants. -/
theorem rows_of_over (reached : Reached key xs size limit paging fetched ahead)
    (isOver : paging.finished = true) : rowsOf fetched = cut limit xs := by
  rw [reached.wanted, reached.stands.nothing_left isOver, List.append_nil]

/-- A read that goes on has not fetched as many rows as it is limited to. -/
theorem below_limit (reached : Reached key xs size limit paging fetched ahead)
    (goesOn : paging.finished = false) : ∀ most ∈ limit, (rowsOf fetched).length < most := by
  intro most isLimit
  have wants := reached.stands.wants goesOn
  rw [reached.remaining, Option.mem_def.mp isLimit] at wants
  simp only [Option.map_some, ne_eq, Option.some.injEq] at wants
  omega

/-- A full page is asked for, or what is left up to the limit. -/
theorem pageSize_eq (reached : Reached key xs size limit paging fetched ahead) :
    paging.pageSize = match limit with
      | none => size
      | some most => min (most - (rowsOf fetched).length) size := by
  unfold Paging.pageSize
  rw [reached.remaining, reached.batch]
  cases limit <;> rfl

/-- A page that is not the last one is full. -/
theorem length_of_goesOn (reached : Reached key xs size limit paging fetched ahead)
    (still : (paging.advance key (ahead.take paging.pageSize)).finished = false) :
    (ahead.take paging.pageSize).length = size := by
  have asked := reached.pageSize_eq
  simp only [Paging.advance, reached.remaining, Bool.or_eq_false_iff, decide_eq_false_iff_not,
    Nat.not_lt, beq_eq_false_iff_ne, ne_eq] at still
  obtain ⟨isFull, wants⟩ := still
  have short := List.length_take_le paging.pageSize ahead
  cases limit with
  | none => exact (Nat.le_antisymm short isFull).trans asked
  | some most =>
    simp only [Option.map_some, Option.some.injEq] at wants asked
    omega

/-- The last page is the last of those that are needed. -/
theorem pagesNeeded_of_ends (reached : Reached key xs size limit paging fetched ahead)
    (goesOn : paging.finished = false)
    (ends : (paging.advance key (ahead.take paging.pageSize)).finished = true) :
    pagesNeeded size xs.length limit = fetched.length + 1 := by
  have asked := reached.pageSize_eq
  have full := reached.full goesOn
  have below := reached.below_limit goesOn
  have total : xs.length = (rowsOf fetched).length + ahead.length := by
    rw [reached.split, List.length_append]
  simp only [Paging.advance, reached.remaining, Bool.or_eq_true, decide_eq_true_eq, beq_iff_eq,
    List.length_take] at ends
  cases limit with
  | none =>
    simp only [Option.map_none, reduceCtorEq, or_false] at ends asked
    exact pagesNeeded_of_short (by omega) (by omega) (by simp)
  | some most =>
    have below := below most rfl
    simp only [Option.map_some, Option.some.injEq] at ends asked
    by_cases many : most ≤ xs.length
    · exact pagesNeeded_of_reached (by omega) (by omega) many
    · refine pagesNeeded_of_short (by omega) (by omega) ?_
      rintro _ ⟨⟩
      omega

/-- No more than a full page is asked for. -/
theorem pageSize_le (reached : Reached key xs size limit paging fetched ahead) :
    paging.pageSize ≤ size := by
  have asked := reached.pageSize_eq
  cases limit with
  | none => exact Nat.le_of_eq asked
  | some most => exact asked ▸ Nat.min_le_right _ _

/-- The page that is fetched next is asked for past the last row before it, too. -/
theorem cursors_concat (reached : Reached key xs size limit paging fetched ahead)
    (goesOn : paging.finished = false) {next page : Fetched Unit τ}
    {before after : List (Fetched Unit τ)} (past : next.after = paging.cursor)
    (split : fetched ++ [next] = before ++ page :: after) :
    page.after = lastUid? key (rowsOf before) ∧ (before ≠ [] → rowsOf before ≠ []) := by
  obtain ⟨rfl, rfl⟩ | ⟨later, among⟩ := split_concat split
  · refine ⟨past.trans reached.stands.cursor, fun started none => ?_⟩
    have full := reached.full goesOn
    rw [none] at full
    have some_fetched := List.length_pos_iff.mpr started
    have positive : 0 < size := reached.batch ▸ reached.stands.batch_pos
    exact absurd full (Nat.ne_of_lt (Nat.mul_pos some_fetched positive))
  · exact reached.cursors before page later among

/-- One page further, the rows are reached that come next. -/
theorem further (reached : Reached key xs size limit paging fetched ahead)
    (goesOn : paging.finished = false) {page : Fetched Unit τ} (past : page.after = paging.cursor)
    (asked : page.limit = paging.pageSize) (isNext : page.rows = ahead.take paging.pageSize)
    (stands : (paging.advance key page.rows).Stands key (rowsOf fetched ++ page.rows)
      (ahead.drop paging.pageSize)) :
    Reached key xs size limit (paging.advance key page.rows) (fetched ++ [page])
      (ahead.drop paging.pageSize) := by
  have rows : rowsOf (fetched ++ [page]) = rowsOf fetched ++ page.rows := rowsOf_concat _ _
  constructor
  case split => rw [rows, isNext, List.append_assoc, List.take_append_drop, reached.split]
  case stands => rwa [rows]
  case batch => exact reached.batch
  case remaining =>
    simp only [Paging.advance, reached.remaining, Option.map_map, rows, List.length_append]
    congr 1
    funext most
    simp only [Function.comp_apply]
    omega
  case wanted =>
    rw [reached.wanted, rows, isNext, Paging.cut_advance key rfl, List.append_assoc]
  case pages => simp only [Paging.advance, reached.pages, List.length_append]; rfl
  case full =>
    intro still
    rw [isNext] at still
    have last := reached.length_of_goesOn still
    rw [rows, List.length_append, reached.full goesOn, isNext, last, List.length_append,
      Nat.add_mul, List.length_singleton, Nat.one_mul]
  case counted =>
    intro ends
    rw [isNext] at ends
    rw [List.length_append, reached.pagesNeeded_of_ends goesOn ends]
    rfl
  case sizes =>
    intro other member
    rcases List.mem_append.mp member with earlier | isLast
    · exact reached.sizes other earlier
    · cases List.mem_singleton.mp isLast
      exact asked ▸ ⟨reached.stands.pageSize_pos goesOn, reached.pageSize_le⟩
  case cursors => exact fun _ _ _ split => reached.cursors_concat goesOn past split

/-- The next page of a read that goes on holds the rows that come next. -/
theorem nextPage (ascending : xs.Pairwise fun x later => key x < key later)
    (reached : Reached key xs size limit paging fetched ahead)
    (goesOn : paging.finished = false) : ∃ page : Fetched Unit τ,
      paging.nextPage (Source.ofList key xs).watched { store := (), fetched }
        = (some (.ok page.rows), paging.advance key page.rows,
          { store := (), fetched := fetched ++ [page] }) ∧
      Reached key xs size limit (paging.advance key page.rows) (fetched ++ [page])
        (ahead.drop paging.pageSize) := by
  have serves := Source.ofList_serves key ascending
  have fetch := reached.stands.fetch_eq serves reached.split
  rw [Outcomes.mapM_ok] at fetch
  obtain ⟨-, stands⟩ := reached.stands.nextPage_of_ok serves reached.split goesOn
    (Outcomes.mapM_ok (ahead.take paging.pageSize))
  refine ⟨⟨(), paging.cursor, paging.pageSize, .ok (ahead.take paging.pageSize)⟩, ?_,
    reached.further goesOn rfl rfl rfl stands⟩
  have short := List.take_of_length_le (List.length_take_le paging.pageSize ahead)
  unfold Paging.nextPage
  rw [if_neg (by rw [goesOn]; decide), Source.fetch_watched fetch]
  simp only [short, Fetched.rows]
  rfl

/-- No more rows are fetched than there are. -/
theorem length_rowsOf_le (reached : Reached key xs size limit paging fetched ahead) :
    (rowsOf fetched).length ≤ xs.length := by
  rw [reached.split, List.length_append]
  exact Nat.le_add_right _ _

end Reached

/-! ### What is delivered -/

/-- Rows and pages are not mixed: no page is drawn, or nothing but pages. -/
def InTurn (draws : List Draw) : Prop := Draw.page ∉ draws ∨ ∀ draw ∈ draws, draw = .page

/-- What was delivered and then what is held back. -/
def Drawing.taken (r : Drawing σ τ) : List (Except StoreError τ) :=
  r.delivered ++ r.paging.buffer.map .ok

/-- What was delivered and what is held back are the rows of the pages, in their order if pages are
drawn in turn. -/
structure IsDrawn (key : τ → Uid) (xs : List τ) (size : Nat) (limit : Option Nat) (inTurn : Prop)
    (r : Drawing (Watched Unit τ) τ) : Prop where
  reached : ∃ ahead, Reached key xs size limit r.paging r.store.fetched ahead
  rows : r.taken.Perm ((rowsOf r.store.fetched).map .ok)
  inOrder : inTurn → r.taken = (rowsOf r.store.fetched).map .ok
  /-- No row is held back before a page was fetched. -/
  fresh : r.paging.pages = 0 → r.paging.buffer = []

namespace IsDrawn

variable {key : τ → Uid} {xs : List τ} {size : Nat} {limit : Option Nat} {inTurn : Prop}
  {r : Drawing (Watched Unit τ) τ}

theorem start (key : τ → Uid) (xs : List τ) (batch : Nat) (limit : Option Nat) (inTurn : Prop) :
    IsDrawn key xs (max batch 1) limit inTurn
      { paging := .start batch limit, store := { store := () } } where
  reached := ⟨xs, .start key xs batch limit⟩
  rows := .refl _
  inOrder _ := rfl
  fresh _ := rfl

/-- Rows that are delivered leave the buffer from the front. -/
theorem deliver (drawn : IsDrawn key xs size limit inTurn r) (front : List τ) {back : List τ}
    (split : r.paging.buffer = front ++ back) :
    IsDrawn key xs size limit inTurn
      { r with
        paging := { r.paging with buffer := back }
        delivered := r.delivered ++ front.map .ok } := by
  obtain ⟨ahead, reached⟩ := drawn.reached
  have same : Drawing.taken { r with
      paging := { r.paging with buffer := back }
      delivered := r.delivered ++ front.map .ok } = r.taken := by
    simp only [Drawing.taken, split, List.map_append, List.append_assoc]
  constructor
  case reached => exact ⟨ahead, reached.buffered back⟩
  case rows => exact same ▸ drawn.rows
  case inOrder => exact same ▸ drawn.inOrder
  case fresh =>
    intro none
    have empty := drawn.fresh none
    rw [split, List.append_eq_nil_iff] at empty
    exact empty.2

/-- After a page was fetched, its rows are delivered past those that are held back. -/
theorem fetched (ascending : xs.Pairwise fun x later => key x < key later)
    (drawn : IsDrawn key xs size limit inTurn r) (goesOn : r.paging.finished = false)
    (noneHeld : inTurn → r.paging.buffer = []) : ∃ page : Fetched Unit τ,
      r.paging.nextPage (Source.ofList key xs).watched r.store
        = (some (.ok page.rows), r.paging.advance key page.rows,
          { store := (), fetched := r.store.fetched ++ [page] }) ∧
      IsDrawn key xs size limit inTurn
        { paging := r.paging.advance key page.rows
          store := { store := (), fetched := r.store.fetched ++ [page] }
          delivered := r.delivered ++ page.rows.map .ok } := by
  obtain ⟨ahead, reached⟩ := drawn.reached
  obtain ⟨page, done, further⟩ := reached.nextPage ascending goesOn
  refine ⟨page, done, ⟨_, further⟩, ?_, ?_, nofun⟩
  · rw [rowsOf_concat, List.map_append]
    refine .trans ?_ (drawn.rows.append_right _)
    simp only [Drawing.taken, Paging.advance, List.append_assoc]
    exact .append_left _ List.perm_append_comm
  · intro isInTurn
    have before := drawn.inOrder isInTurn
    simp only [Drawing.taken, noneHeld isInTurn, List.map_nil, List.append_nil] at before
    simp only [Drawing.taken, Paging.advance, noneHeld isInTurn, List.map_nil, List.append_nil,
      rowsOf_concat, List.map_append, before]

/-- After a page was fetched when no row was held back, its rows are. -/
theorem held (ascending : xs.Pairwise fun x later => key x < key later)
    (drawn : IsDrawn key xs size limit inTurn r) (goesOn : r.paging.finished = false)
    (noneHeld : r.paging.buffer = []) : ∃ page : Fetched Unit τ,
      r.paging.nextPage (Source.ofList key xs).watched r.store
        = (some (.ok page.rows), r.paging.advance key page.rows,
          { store := (), fetched := r.store.fetched ++ [page] }) ∧
      IsDrawn key xs size limit inTurn
        { r with
          paging := { r.paging.advance key page.rows with buffer := page.rows }
          store := { store := (), fetched := r.store.fetched ++ [page] } } := by
  obtain ⟨page, done, further⟩ := drawn.fetched ascending goesOn fun _ => noneHeld
  obtain ⟨ahead, reached⟩ := further.reached
  have rows := further.rows
  have inOrder := further.inOrder
  simp only [Drawing.taken, Paging.advance, noneHeld, List.map_nil, List.append_nil]
    at rows inOrder
  exact ⟨page, done, ⟨ahead, reached.buffered page.rows⟩, rows, inOrder, nofun⟩

/-- A call on a read that is over delivers nothing. -/
theorem unchanged (drawn : IsDrawn key xs size limit inTurn r) :
    IsDrawn key xs size limit inTurn { r with delivered := r.delivered ++ [] } :=
  drawn.deliver [] rfl

theorem run_next (ascending : xs.Pairwise fun x later => key x < key later)
    (drawn : IsDrawn key xs size limit inTurn r) :
    IsDrawn key xs size limit inTurn (Draw.next.run (Source.ofList key xs).watched r) := by
  simp only [Draw.run, Paging.next]
  cases buffer : r.paging.buffer with
  | cons row rest => exact drawn.deliver [row] buffer
  | nil =>
    cases isOver : r.paging.finished with
    | true =>
      rw [Paging.nextPage_of_finished isOver]
      exact drawn.unchanged
    | false =>
      obtain ⟨page, done, held⟩ := drawn.held ascending isOver buffer
      rw [done]
      cases rows : page.rows with
      | nil =>
        rw [rows] at held
        have same : { r.paging.advance key [] with buffer := [] } = r.paging.advance key [] := by
          simp [Paging.advance, buffer]
        exact same ▸ held.unchanged
      | cons row rest =>
        rw [rows] at held
        exact held.deliver [row] rfl

theorem run_page (ascending : xs.Pairwise fun x later => key x < key later)
    (drawn : IsDrawn key xs size limit inTurn r) (noneHeld : inTurn → r.paging.buffer = []) :
    IsDrawn key xs size limit inTurn (Draw.page.run (Source.ofList key xs).watched r) := by
  simp only [Draw.run]
  cases isOver : r.paging.finished with
  | true =>
    rw [Paging.nextPage_of_finished isOver]
    exact drawn.unchanged
  | false =>
    obtain ⟨page, done, further⟩ := drawn.fetched ascending isOver noneHeld
    rw [done]
    exact further

theorem run_prime (ascending : xs.Pairwise fun x later => key x < key later)
    (drawn : IsDrawn key xs size limit inTurn r) :
    IsDrawn key xs size limit inTurn (Draw.prime.run (Source.ofList key xs).watched r) := by
  simp only [Draw.run, Paging.prime]
  split
  · rename_i none
    cases isOver : r.paging.finished with
    | true =>
      rw [Paging.nextPage_of_finished isOver]
      exact drawn.unchanged
    | false =>
      obtain ⟨page, done, held⟩ := drawn.held ascending isOver (drawn.fresh none)
      rw [done]
      exact held.unchanged
  · exact drawn.unchanged

/-- Every call keeps what was delivered in step with the pages. -/
theorem run (ascending : xs.Pairwise fun x later => key x < key later)
    (drawn : IsDrawn key xs size limit inTurn r) (draw : Draw)
    (noneHeld : inTurn → draw = .page → r.paging.buffer = []) :
    IsDrawn key xs size limit inTurn (draw.run (Source.ofList key xs).watched r) := by
  cases draw with
  | next => exact drawn.run_next ascending
  | page => exact drawn.run_page ascending fun isInTurn => noneHeld isInTurn rfl
  | prime => exact drawn.run_prime ascending

theorem runAll (ascending : xs.Pairwise fun x later => key x < key later)
    (drawn : IsDrawn key xs size limit inTurn r) (draws : List Draw)
    (turns : inTurn → Draw.page ∉ draws ∨
      (∀ draw ∈ draws, draw = .page) ∧ r.paging.buffer = []) :
    IsDrawn key xs size limit inTurn (Draw.runAll (Source.ofList key xs).watched draws r) := by
  induction draws generalizing r with
  | nil => exact drawn
  | cons draw rest ih =>
    refine ih (drawn.run ascending draw ?_) ?_
    · intro isInTurn isPage
      rcases turns isInTurn with noPage | ⟨-, noneHeld⟩
      · exact absurd (isPage ▸ List.mem_cons_self) noPage
      · exact noneHeld
    · intro isInTurn
      rcases turns isInTurn with noPage | ⟨onlyPages, noneHeld⟩
      · exact .inl fun member => noPage (List.mem_cons_of_mem _ member)
      · refine .inr ⟨fun other member => onlyPages other (List.mem_cons_of_mem _ member), ?_⟩
        rw [onlyPages draw List.mem_cons_self]
        simp only [Draw.run, Paging.nextPage]
        split
        · exact noneHeld
        · split <;> exact noneHeld

/-- No more rows are delivered than there are. -/
theorem length_delivered_le (drawn : IsDrawn key xs size limit inTurn r) :
    r.delivered.length ≤ xs.length := by
  obtain ⟨ahead, reached⟩ := drawn.reached
  have taken := drawn.rows.length_eq
  rw [Drawing.taken, List.length_append, List.length_map, List.length_map] at taken
  have fetched := reached.length_rowsOf_le
  omega

/-- A read that is over and holds nothing back has delivered what it wants. -/
theorem delivered_of_over (drawn : IsDrawn key xs size limit inTurn r)
    (isOver : r.paging.finished = true) (empty : r.paging.buffer = []) :
    r.delivered.Perm ((cut limit xs).map .ok) ∧
      (inTurn → r.delivered = (cut limit xs).map .ok) := by
  obtain ⟨ahead, reached⟩ := drawn.reached
  have rows := drawn.rows
  have inOrder := drawn.inOrder
  rw [Drawing.taken, empty, List.map_nil, List.append_nil, reached.rows_of_over isOver]
    at rows inOrder
  exact ⟨rows, inOrder⟩

/-- Asking for the next row delivers one, unless the read is over and holds nothing back. -/
theorem next_cases (ascending : xs.Pairwise fun x later => key x < key later)
    (drawn : IsDrawn key xs size limit inTurn r) :
    (Draw.next.run (Source.ofList key xs).watched r).delivered.length = r.delivered.length + 1 ∨
      (Draw.next.run (Source.ofList key xs).watched r).paging.finished = true ∧
        (Draw.next.run (Source.ofList key xs).watched r).paging.buffer = [] := by
  simp only [Draw.run, Paging.next]
  cases buffer : r.paging.buffer with
  | cons row rest => exact .inl (List.length_append ..)
  | nil =>
    cases isOver : r.paging.finished with
    | true =>
      rw [Paging.nextPage_of_finished isOver]
      exact .inr ⟨isOver, buffer⟩
    | false =>
      obtain ⟨ahead, reached⟩ := drawn.reached
      obtain ⟨page, done, -⟩ := reached.nextPage ascending isOver
      rw [done]
      cases rows : page.rows with
      | cons row rest => exact .inl (List.length_append ..)
      | nil =>
        have isShort : ([] : List τ).length < r.paging.pageSize :=
          reached.stands.pageSize_pos isOver
        refine .inr ⟨?_, buffer⟩
        simp only [Paging.advance, decide_eq_true isShort, Bool.true_or]

/-- Asking for rows often enough leads to the end of the read. -/
theorem ends (ascending : xs.Pairwise fun x later => key x < key later)
    (drawn : IsDrawn key xs size limit inTurn r) {more : Nat}
    (enough : xs.length < r.delivered.length + more) :
    (Draw.runAll (Source.ofList key xs).watched (List.replicate more .next) r).paging.finished
        = true ∧
      (Draw.runAll (Source.ofList key xs).watched (List.replicate more .next) r).paging.buffer
        = [] := by
  induction more generalizing r with
  | zero => exact absurd drawn.length_delivered_le (Nat.not_le.mpr enough)
  | succ more ih =>
    rw [List.replicate_succ]
    rcases drawn.next_cases ascending with oneMore | ⟨isOver, empty⟩
    · have further := drawn.run ascending .next fun _ => nofun
      refine ih further (?_ : xs.length < (Draw.next.run _ r).delivered.length + more)
      omega
    · rw [Draw.runAll, List.foldl_cons, ← Draw.runAll, Draw.runAll_of_over isOver empty]
      exact ⟨isOver, empty⟩

end IsDrawn

/-! ### Reads that are drawn to their end -/

/-- The read of a watched list from the start, after some calls. -/
def watchedDraws (key : τ → Uid) (xs : List τ) (batch : Nat) (limit : Option Nat)
    (draws : List Draw) : Drawing (Watched Unit τ) τ :=
  Draw.runAll (Source.ofList key xs).watched draws
    { paging := .start batch limit, store := { store := () } }

/-- A read of an ascending list delivers each row up to its limit once and nothing else, and every
page is asked for past the last row of the pages before. -/
structure DeliversOnce (key : τ → Uid) (xs : List τ) (batch : Nat) (limit : Option Nat)
    (draws : List Draw) (r : Drawing (Watched Unit τ) τ) : Prop where
  /-- Watching the list changes nothing of the read. -/
  isWatched : r.unwatched = Draw.runAll (Source.ofList key xs) draws
    { paging := .start batch limit, store := () }
  /-- There is no next row, and asking for one changes nothing. -/
  ended : r.paging.next (Source.ofList key xs).watched r.store = (none, r.paging, r.store)
  once : r.delivered.Perm ((cut limit xs).map .ok)
  pages : r.paging.pages = r.store.fetched.length
  /-- A read of no rows fetches nothing. -/
  pages_of_none : limit = some 0 → r.store.fetched.length = 0
  /-- A read that reaches its limit fetches the pages that it fills, the last one perhaps in
  part. -/
  pages_of_reached : ∀ most, limit = some most → 1 ≤ most → most ≤ xs.length →
    r.store.fetched.length = (most + max batch 1 - 1) / max batch 1
  /-- Any other read fetches the pages that the rows fill, and one that is short. -/
  pages_of_all : (∀ most ∈ limit, xs.length < most) →
    r.store.fetched.length = xs.length / max batch 1 + 1
  sizes : ∀ page ∈ r.store.fetched, 1 ≤ page.limit ∧ page.limit ≤ max batch 1
  firstCursor : ∀ page ∈ r.store.fetched.head?, page.after = none
  laterCursor : ∀ before page after, r.store.fetched = before ++ page :: after → before ≠ [] →
    ∃ row, (rowsOf before).getLast? = some row ∧ page.after = some (key row)

/-- A read that was drawn to its end delivers each row up to its limit once. -/
theorem IsDrawn.deliversOnce {key : τ → Uid} {xs : List τ} {batch : Nat} {limit : Option Nat}
    {inTurn : Prop} {draws : List Draw}
    (drawn : IsDrawn key xs (max batch 1) limit inTurn (watchedDraws key xs batch limit draws))
    (isOver : (watchedDraws key xs batch limit draws).paging.finished = true)
    (empty : (watchedDraws key xs batch limit draws).paging.buffer = []) :
    DeliversOnce key xs batch limit draws (watchedDraws key xs batch limit draws) := by
  obtain ⟨ahead, reached⟩ := drawn.reached
  have counted := reached.counted isOver
  constructor
  case isWatched => exact (Draw.runAll_unwatched _ draws _).symm
  case ended => exact Paging.next_eq_of_over isOver empty
  case once => exact (drawn.delivered_of_over isOver empty).1
  case pages => exact reached.pages
  case pages_of_none =>
    rintro rfl
    rw [counted, pagesNeeded, if_pos (Nat.zero_le _)]
    exact Nat.div_eq_of_lt (by omega)
  case pages_of_reached =>
    rintro most rfl - many
    rw [counted, pagesNeeded, if_pos many]
  case pages_of_all =>
    intro few
    cases limit with
    | none => exact counted
    | some most => rw [counted, pagesNeeded, if_neg (Nat.not_le.mpr (few most rfl))]
  case sizes => exact reached.sizes
  case firstCursor =>
    intro page isFirst
    obtain ⟨after, split⟩ := List.head?_eq_some_iff.mp isFirst
    exact (reached.cursors [] page after split).1
  case laterCursor =>
    intro before page after split isLater
    obtain ⟨asked, someRow⟩ := reached.cursors before page after split
    have last := List.getLast?_eq_some_getLast (someRow isLater)
    refine ⟨_, last, ?_⟩
    rw [asked, lastUid?, last]
    rfl

/-- However rows and pages of an ascending list are drawn, a read that is then drawn row by row to
its end delivers each row up to its limit once, in order unless rows and pages were mixed. -/
theorem runAll_deliversOnce {key : τ → Uid} {xs : List τ}
    (ascending : xs.Pairwise fun x later => key x < key later) (batch : Nat) (limit : Option Nat)
    (draws : List Draw) {more : Nat} (enough : xs.length < more) :
    DeliversOnce key xs batch limit (draws ++ List.replicate more .next)
        (watchedDraws key xs batch limit (draws ++ List.replicate more .next)) ∧
      (InTurn draws →
        (watchedDraws key xs batch limit (draws ++ List.replicate more .next)).delivered
          = (cut limit xs).map .ok) := by
  have started := (IsDrawn.start key xs batch limit (InTurn draws)).runAll ascending draws
    fun inTurn => inTurn.imp_right fun onlyPages => ⟨onlyPages, rfl⟩
  have drawn := started.runAll ascending (List.replicate more .next) fun _ => .inl (by simp)
  obtain ⟨isOver, empty⟩ := started.ends ascending (Nat.lt_add_left _ enough)
  rw [Draw.runAll, Draw.runAll, ← List.foldl_append, ← Draw.runAll] at drawn isOver empty
  exact ⟨drawn.deliversOnce isOver empty, (drawn.delivered_of_over isOver empty).2⟩

theorem runAll_deliversOnce_mixed :
    DeliversOnce id [2, 3, 5, 7, 11] 2 (some 4) ([.prime, .page, .next] ++ List.replicate 6 .next)
        (watchedDraws id [2, 3, 5, 7, 11] 2 (some 4)
          ([.prime, .page, .next] ++ List.replicate 6 .next)) ∧
      (InTurn [.prime, .page, .next] →
        (watchedDraws id [2, 3, 5, 7, 11] 2 (some 4)
            ([.prime, .page, .next] ++ List.replicate 6 .next)).delivered
          = (cut (some 4) [2, 3, 5, 7, 11]).map .ok) :=
  runAll_deliversOnce (by decide) 2 (some 4) [.prime, .page, .next] (by decide)

/-- A page that is drawn goes past the rows that are held back. -/
example : (watchedDraws id [2, 3, 5, 7, 11] 2 (some 4)
    ([.prime, .page, .next] ++ List.replicate 6 .next)).delivered.filterMap Except.toOption
      = [5, 7, 2, 3] := by
  decide

end Mailroom
