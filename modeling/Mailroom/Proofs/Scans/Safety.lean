import Mailroom.Proofs.Scans.Draws
/-!
Reads of a source that may do anything.

A source may answer with more rows than were asked for or with fewer, in any order, and may fail at
any call. A read of it is called on in any way here, and the source is `noting` its pages, so that
every page that was asked for is known. The number of rows still wanted is what the pages have left
of the limit, and the read is over as soon as a page tells so (`Tallies`). What was answered and
what is held back are the rows and the errors of the pages (`IsKept`). One call keeps both
(`IsKept.call`), so every read is safe: it stops in time, delivers each error once and no more rows
than it is limited to, and answers from its buffer alone once it is over (`IsSafe`, `reads_safe`).
-/

namespace Mailroom

variable {σ κ τ : Type}

/-! ### Pages -/

/-- The error that was answered. -/
def error? {α : Type} : Except StoreError α → Option StoreError
  | .ok _ => none
  | .error e => some e

/-- A page that was asked for: past which key, how many rows, and what the source answered. -/
structure Trip (κ τ : Type) where
  after : Option κ
  size : Nat
  answer : Except StoreError (List τ)

namespace Trip

/-- The page, of whose rows no more than asked for are counted. -/
def page (trip : Trip κ τ) : Except StoreError (List τ) :=
  match trip.answer with
  | .ok rows => .ok (rows.take trip.size)
  | .error e => .error e

/-- The rows of the page; one that could not be read has none. -/
def rows (trip : Trip κ τ) : List τ := trip.page.toOption.getD []

/-- Whether the page is the last one: it could not be read, or it is shorter than asked for. -/
def isLast (trip : Trip κ τ) : Bool :=
  match trip.answer with
  | .ok rows => rows.length < trip.size
  | .error _ => true

theorem length_rows_le (trip : Trip κ τ) : trip.rows.length ≤ trip.size := by
  obtain ⟨after, size, _ | rows⟩ := trip
  · exact Nat.zero_le _
  · exact List.length_take_le _ _

theorem rows_of_ok {trip : Trip κ τ} {rows : List τ} (page : trip.page = .ok rows) :
    trip.rows = rows := by
  rw [Trip.rows, page]
  rfl

theorem rows_of_error {trip : Trip κ τ} {e : StoreError} (page : trip.page = .error e) :
    trip.rows = [] := by
  rw [Trip.rows, page]
  rfl

theorem error?_page (trip : Trip κ τ) : error? trip.page = error? trip.answer := by
  obtain ⟨after, size, _ | rows⟩ := trip <;> rfl

/-- A page that is not the last one could be read. -/
theorem error?_of_not_isLast {trip : Trip κ τ} (goesOn : ¬ trip.isLast = true) :
    error? trip.answer = none := by
  obtain ⟨after, size, _ | rows⟩ := trip
  · exact absurd rfl goesOn
  · rfl

end Trip

/-- A read up to a limit is over after some pages: one of them is the last, or their rows are as
many as are wanted. -/
def IsOver (limit : Option Nat) (trips : List (Trip κ τ)) : Prop :=
  (∃ trip ∈ trips, trip.isLast = true) ∨ ∃ most ∈ limit, most ≤ (trips.flatMap Trip.rows).length

theorem isOver_concat {limit : Option Nat} {trips : List (Trip κ τ)} {trip : Trip κ τ} :
    IsOver limit (trips ++ [trip]) ↔ (∃ trip ∈ trips, trip.isLast = true) ∨ trip.isLast = true ∨
      ∃ most ∈ limit, most ≤ (trips.flatMap Trip.rows).length + trip.rows.length := by
  simp only [IsOver, List.mem_append, List.mem_singleton, or_and_right, exists_or,
    exists_eq_left, List.flatMap_append, List.flatMap_singleton, List.length_append, or_assoc]

/-- A store beside the pages that were asked for. -/
structure WithTrips (σ κ τ : Type) where
  store : σ
  trips : List (Trip κ τ) := []

/-- A source that notes each page that is asked for. -/
def Source.noting (source : Source σ κ τ) : Source (WithTrips σ κ τ) κ τ where
  key := source.key
  fetch after size := fun noted =>
    let (answer, store) := source.fetch after size noted.store
    (answer, { store, trips := noted.trips ++ [⟨after, size, answer⟩] })

theorem Source.noting_projects (source : Source σ κ τ) :
    Source.Projects WithTrips.store source.noting source := ⟨rfl, fun _ _ _ => rfl⟩

/-! ### Progress -/

namespace Paging

variable {source : Source σ κ τ} {paging : Paging κ τ}

/-- The state of a read after a page. -/
def past (paging : Paging κ τ) (key : τ → κ) (trip : Trip κ τ) : Paging κ τ :=
  match trip.page with
  | .ok rows => paging.advance key rows
  | .error _ => { paging with finished := true }

/-- No more rows are asked for than are still wanted. -/
theorem pageSize_le : ∀ left ∈ paging.remaining, paging.pageSize ≤ left := by
  intro left wanted
  unfold pageSize
  rw [Option.mem_def.mp wanted]
  exact Nat.min_le_left _ _

theorem past_batch (key : τ → κ) (trip : Trip κ τ) :
    (paging.past key trip).batch = paging.batch := by
  obtain ⟨after, size, _ | rows⟩ := trip <;> rfl

/-- A page leaves the buffer as it is. -/
theorem past_buffered (key : τ → κ) (trip : Trip κ τ) :
    ({ paging.past key trip with buffer := paging.buffer } : Paging κ τ) = paging.past key trip := by
  obtain ⟨after, size, _ | rows⟩ := trip <;> rfl

/-- Pages are counted, unless they could not be read. -/
theorem past_pages (key : τ → κ) (trip : Trip κ τ) :
    (paging.past key trip).pages = paging.pages + trip.page.toOption.toList.length := by
  obtain ⟨after, size, _ | rows⟩ := trip <;> rfl

theorem past_pages_ne_zero (key : τ → κ) {trip : Trip κ τ} {rows : List τ}
    (page : trip.page = .ok rows) : (paging.past key trip).pages ≠ 0 := by
  rw [past_pages, page]
  exact Nat.succ_ne_zero _

/-- The rows of a page are counted off. -/
theorem past_remaining (key : τ → κ) (trip : Trip κ τ) :
    (paging.past key trip).remaining = paging.remaining.map (· - trip.rows.length) := by
  obtain ⟨after, size, _ | rows⟩ := trip
  · exact Option.map_id'.symm
  · rfl

/-- After a page a read is over if it is the last one or no row is wanted any more. -/
theorem past_finished (key : τ → κ) {trip : Trip κ τ} (asked : trip.size = paging.pageSize) :
    (paging.past key trip).finished = true ↔
      trip.isLast = true ∨ (paging.past key trip).remaining = some 0 := by
  rw [past_remaining]
  obtain ⟨after, size, _ | rows⟩ := trip
  · exact ⟨fun _ => .inl rfl, fun _ => rfl⟩
  · obtain rfl : size = paging.pageSize := asked
    have isShort : (rows.take paging.pageSize).length < paging.pageSize
        ↔ rows.length < paging.pageSize := by
      rw [List.length_take]
      omega
    show (decide _ || _ == some 0) = true ↔ decide _ = true ∨ _
    rw [Bool.or_eq_true_iff, decide_eq_true_iff, decide_eq_true_iff, isShort, beq_iff_eq]
    rfl

/-- A read that goes on asks for one page. -/
theorem nextPage_noting (source : Source σ κ τ) (goesOn : paging.finished = false)
    (noted : WithTrips σ κ τ) : ∃ trip store, trip.size = paging.pageSize ∧
      paging.nextPage source.noting noted
        = (some trip.page, paging.past source.key trip,
          { store, trips := noted.trips ++ [trip] }) := by
  rcases fetched : source.fetch paging.cursor paging.pageSize noted.store with ⟨answer, store⟩
  refine ⟨⟨paging.cursor, paging.pageSize, answer⟩, store, rfl, ?_⟩
  unfold nextPage Source.noting
  rw [if_neg (by rw [goesOn]; decide)]
  simp only [fetched]
  cases answer <;> rfl

/-- A page that was fetched was asked for by a read that goes on, and takes it further. -/
theorem of_nextPage_eq_ok {store left : σ} {rows : List τ} {next : Paging κ τ}
    (fetched : paging.nextPage source store = (some (.ok rows), next, left)) :
    paging.finished = false ∧ next = paging.advance source.key rows := by
  unfold nextPage at fetched
  split at fetched
  · cases fetched
  · rename_i goesOn
    refine ⟨Bool.eq_false_iff.mpr goesOn, ?_⟩
    split at fetched <;> cases fetched
    rfl

/-- Fetches the next page into the buffer and asks for a row again. -/
def refill (source : Source σ κ τ) (paging : Paging κ τ) (store : σ) :
    Option (Except StoreError τ) × Paging κ τ × σ :=
  match paging.nextPage source store with
  | (none, paging, store) => (none, paging, store)
  | (some (.error e), paging, store) => (some (.error e), paging, store)
  | (some (.ok rows), paging, store) => { paging with buffer := rows }.next source store

/-- To ask for a row when none is held back is to ask again with the next page in the buffer. -/
theorem next_of_empty (wants : paging.finished = false → 0 < paging.pageSize)
    (empty : paging.buffer = []) (store : σ) :
    paging.next source store = paging.refill source store := by
  rcases fetched : paging.nextPage source store with ⟨_ | e | _ | ⟨row, rest⟩, next, left⟩
  · simp only [Paging.next, empty, refill, fetched]
  · simp only [Paging.next, empty, refill, fetched]
  · -- an empty page is short, so nothing is fetched when the read asks again
    obtain ⟨goesOn, rfl⟩ := of_nextPage_eq_ok fetched
    have isShort : ([] : List τ).length < paging.pageSize := wants goesOn
    have isOver : (paging.advance source.key []).finished = true := by
      simp only [advance, decide_eq_true isShort, Bool.true_or]
    have same : ({ paging.advance source.key [] with buffer := [] } : Paging κ τ)
        = paging.advance source.key [] := by
      simp only [advance, empty]
    have noPage : (paging.advance source.key []).nextPage source left
        = (none, paging.advance source.key [], left) := nextPage_of_finished isOver
    simp only [Paging.next, empty, refill, fetched, same, noPage]
  · simp only [Paging.next, empty, refill, fetched]

end Paging

/-- The pages that were fetched tell how many rows are still wanted and whether the read is over.
No page was asked for once it was. -/
structure Tallies (limit : Option Nat) (paging : Paging κ τ) (trips : List (Trip κ τ)) : Prop where
  batch_pos : 0 < paging.batch
  remaining : paging.remaining = limit.map (· - (trips.flatMap Trip.rows).length)
  within : ∀ most ∈ limit, (trips.flatMap Trip.rows).length ≤ most
  finished_iff : paging.finished = true ↔ IsOver limit trips
  stops : ∀ before trip after, trips = before ++ trip :: after → ¬ IsOver limit before

namespace Tallies

variable {limit : Option Nat} {paging : Paging κ τ} {trips : List (Trip κ τ)}

theorem start (batch : Nat) (limit : Option Nat) :
    Tallies limit (.start batch limit : Paging κ τ) [] where
  batch_pos := Nat.lt_of_lt_of_le Nat.one_pos (Nat.le_max_right _ _)
  remaining := by cases limit <;> rfl
  within _ _ := Nat.zero_le _
  finished_iff := by simp [Paging.start, IsOver]
  stops before trip after split := by simp at split

/-- What is held back does not matter to what is still wanted. -/
theorem buffered (tallies : Tallies limit paging trips) (buffer : List τ) :
    Tallies limit { paging with buffer } trips :=
  ⟨tallies.batch_pos, tallies.remaining, tallies.within, tallies.finished_iff, tallies.stops⟩

/-- A read that goes on wants more rows than it has fetched. -/
theorem below_limit (tallies : Tallies limit paging trips) (goesOn : paging.finished = false) :
    ∀ most ∈ limit, (trips.flatMap Trip.rows).length < most := by
  intro most isLimit
  refine Nat.not_le.mp fun reached => ?_
  have isOver := tallies.finished_iff.mpr (.inr ⟨most, isLimit, reached⟩)
  rw [goesOn] at isOver
  cases isOver

theorem pageSize_pos (tallies : Tallies limit paging trips) (goesOn : paging.finished = false) :
    0 < paging.pageSize := by
  have positive := tallies.batch_pos
  have below := tallies.below_limit goesOn
  unfold Paging.pageSize
  rw [tallies.remaining]
  cases limit with
  | none => exact positive
  | some most =>
    have below := below most rfl
    simp only [Option.map_some]
    omega

/-- The next page is counted. -/
theorem past (tallies : Tallies limit paging trips) (goesOn : paging.finished = false)
    (key : τ → κ) {trip : Trip κ τ} (asked : trip.size = paging.pageSize) :
    Tallies limit (paging.past key trip) (trips ++ [trip]) := by
  have notOver : ¬ IsOver limit trips := fun isOver => by
    have finished := tallies.finished_iff.mpr isOver
    rw [goesOn] at finished
    cases finished
  have within : ∀ most ∈ limit, (trips.flatMap Trip.rows).length + trip.rows.length ≤ most := by
    intro most isLimit
    have before := tallies.within most isLimit
    have wanted : most - (trips.flatMap Trip.rows).length ∈ paging.remaining := by
      rw [tallies.remaining, Option.mem_def.mp isLimit]
      rfl
    have short := Nat.le_trans (asked ▸ trip.length_rows_le) (Paging.pageSize_le _ wanted)
    omega
  have remaining : (paging.past key trip).remaining
      = limit.map (· - ((trips ++ [trip]).flatMap Trip.rows).length) := by
    rw [Paging.past_remaining, tallies.remaining, Option.map_map, List.flatMap_append,
      List.flatMap_singleton, List.length_append]
    exact congrArg (limit.map ·) (funext fun most => Nat.sub_sub _ _ _)
  constructor
  case batch_pos =>
    rw [Paging.past_batch]
    exact tallies.batch_pos
  case remaining => exact remaining
  case within =>
    rw [List.flatMap_append, List.flatMap_singleton, List.length_append]
    exact within
  case finished_iff =>
    have noneLast : ¬ ∃ trip ∈ trips, trip.isLast = true := fun last => notOver (.inl last)
    rw [Paging.past_finished key asked, isOver_concat, or_iff_right noneLast, remaining]
    refine or_congr_right ?_
    rw [Option.map_eq_some_iff, List.flatMap_append, List.flatMap_singleton, List.length_append]
    exact exists_congr fun most => and_congr_right fun _ => Nat.sub_eq_zero_iff_le
  case stops =>
    intro before next after split
    obtain ⟨rfl, rfl⟩ | ⟨later, among⟩ := split_concat split
    · exact notOver
    · exact tallies.stops before next later among

end Tallies

/-! ### Calls -/

/-- What a call of a read answered. -/
inductive Reply (τ : Type) where
  | row (answer : Option (Except StoreError τ))
  | page (answer : Option (Except StoreError (List τ)))
  | primed (answer : Except StoreError Unit)

namespace Reply

/-- The rows that an answer delivers. -/
def rows : Reply τ → List τ
  | row answer => (answer.bind Except.toOption).toList
  | page answer => (answer.bind Except.toOption).getD []
  | primed _ => []

/-- The error that an answer delivers, if any. -/
def errors : Reply τ → List StoreError
  | row answer => (answer.bind error?).toList
  | page answer => (answer.bind error?).toList
  | primed answer => (error? answer).toList

end Reply

/-- A read that is called on: how far it has come, its store, and what was answered so far. -/
structure Dialogue (σ κ τ : Type) where
  paging : Paging κ τ
  store : σ
  replies : List (Reply τ) := []

namespace Dialogue

/-- Makes a call. -/
def call (source : Source σ κ τ) (d : Dialogue σ κ τ) : Draw → Dialogue σ κ τ
  | .next =>
    let (answer, paging, store) := d.paging.next source d.store
    { paging, store, replies := d.replies ++ [.row answer] }
  | .page =>
    let (answer, paging, store) := d.paging.nextPage source d.store
    { paging, store, replies := d.replies ++ [.page answer] }
  | .prime =>
    let (answer, paging, store) := d.paging.prime source d.store
    { paging, store, replies := d.replies ++ [.primed answer] }

/-- Makes calls one after another. -/
def callAll (source : Source σ κ τ) (draws : List Draw) (d : Dialogue σ κ τ) : Dialogue σ κ τ :=
  draws.foldl (call source) d

/-- The read without its pages. -/
def unnoted (d : Dialogue (WithTrips σ κ τ) κ τ) : Dialogue σ κ τ :=
  ⟨d.paging, d.store.store, d.replies⟩

/-- Noting the pages changes nothing of a call. -/
theorem call_unnoted (source : Source σ κ τ) (draw : Draw)
    (d : Dialogue (WithTrips σ κ τ) κ τ) :
    d.unnoted.call source draw = (d.call source.noting draw).unnoted := by
  cases draw with
  | next => simp only [call, unnoted, next_projects source.noting_projects]
  | page => simp only [call, unnoted, nextPage_projects source.noting_projects]
  | prime => simp only [call, unnoted, prime_projects source.noting_projects]

theorem callAll_unnoted (source : Source σ κ τ) (draws : List Draw)
    (d : Dialogue (WithTrips σ κ τ) κ τ) :
    callAll source draws d.unnoted = (callAll source.noting draws d).unnoted := by
  induction draws generalizing d with
  | nil => rfl
  | cons draw rest ih =>
    rw [callAll, List.foldl_cons, call_unnoted]
    exact ih _

end Dialogue

/-! ### What was answered -/

/-- What was answered and what is held back are the rows and the errors of the pages. -/
structure IsKept (limit : Option Nat) (d : Dialogue (WithTrips σ κ τ) κ τ) : Prop where
  tallies : Tallies limit d.paging d.store.trips
  rows : (d.replies.flatMap Reply.rows ++ d.paging.buffer).Perm (d.store.trips.flatMap Trip.rows)
  errors : d.replies.flatMap Reply.errors = d.store.trips.filterMap (error? ·.answer)
  /-- No row is held back before a page was fetched. -/
  fresh : d.paging.pages = 0 → d.paging.buffer = []

namespace IsKept

variable {source : Source σ κ τ} {limit : Option Nat} {d : Dialogue (WithTrips σ κ τ) κ τ}

theorem start (batch : Nat) (limit : Option Nat) (store : σ) :
    IsKept limit ({ paging := .start batch limit, store := { store } } :
      Dialogue (WithTrips σ κ τ) κ τ) where
  tallies := .start batch limit
  rows := .refl _
  errors := rfl
  fresh _ := rfl

/-- An answer from the buffer takes rows from its front. -/
theorem reply (kept : IsKept limit d) (answer : Reply τ) {back : List τ}
    (split : d.paging.buffer = answer.rows ++ back) (noError : answer.errors = []) :
    IsKept limit
      { d with
        paging := { d.paging with buffer := back }
        replies := d.replies ++ [answer] } where
  tallies := kept.tallies.buffered back
  rows := by
    have rows := kept.rows
    rw [split] at rows
    rwa [List.flatMap_append, List.flatMap_singleton, List.append_assoc]
  errors := by
    rw [List.flatMap_append, List.flatMap_singleton, noError, List.append_nil]
    exact kept.errors
  fresh none := by
    have empty := kept.fresh none
    rw [split, List.append_eq_nil_iff] at empty
    exact empty.2

/-- An answer from a page delivers some of its rows and those that were held back, and holds back
the others. -/
theorem fetched (kept : IsKept limit d) (goesOn : d.paging.finished = false) (key : τ → κ)
    {trip : Trip κ τ} (asked : trip.size = d.paging.pageSize) (store : σ) (answer : Reply τ)
    (buffer : List τ) (rows : (answer.rows ++ buffer).Perm (d.paging.buffer ++ trip.rows))
    (errors : answer.errors = (error? trip.page).toList)
    (fresh : (d.paging.past key trip).pages = 0 → buffer = []) :
    IsKept limit
      { paging := { d.paging.past key trip with buffer }
        store := { store, trips := d.store.trips ++ [trip] }
        replies := d.replies ++ [answer] } where
  tallies := (kept.tallies.past goesOn key asked).buffered buffer
  rows := by
    rw [List.flatMap_append, List.flatMap_singleton, List.flatMap_append, List.flatMap_singleton,
      List.append_assoc]
    refine (rows.append_left _).trans ?_
    rw [← List.append_assoc]
    exact kept.rows.append_right _
  errors := by
    rw [List.flatMap_append, List.flatMap_singleton, kept.errors, errors, trip.error?_page,
      List.filterMap_append, List.filterMap_cons, List.filterMap_nil]
    cases error? trip.answer <;> rfl
  fresh := fresh

/-- An answer from a page that leaves the buffer as it is. -/
theorem fetched_past (kept : IsKept limit d) (goesOn : d.paging.finished = false) (key : τ → κ)
    {trip : Trip κ τ} (asked : trip.size = d.paging.pageSize) (store : σ) (answer : Reply τ)
    (rows : answer.rows = trip.rows) (errors : answer.errors = (error? trip.page).toList) :
    IsKept limit
      { paging := d.paging.past key trip
        store := { store, trips := d.store.trips ++ [trip] }
        replies := d.replies ++ [answer] } := by
  rw [← Paging.past_buffered]
  refine kept.fetched goesOn key asked store answer d.paging.buffer ?_ errors fun none => ?_
  · rw [rows]
    exact List.perm_append_comm
  · rw [Paging.past_pages] at none
    exact kept.fresh (Nat.eq_zero_of_add_eq_zero_right none)

theorem call_page (kept : IsKept limit d) : IsKept limit (d.call source.noting .page) := by
  cases goesOn : d.paging.finished with
  | true =>
    simp only [Dialogue.call, Paging.nextPage_of_finished goesOn]
    exact kept.reply (.page none) rfl rfl
  | false =>
    obtain ⟨trip, store, asked, fetched⟩ := Paging.nextPage_noting source goesOn d.store
    simp only [Dialogue.call, fetched]
    exact kept.fetched_past goesOn source.key asked store (.page (some trip.page)) rfl rfl

theorem call_next (kept : IsKept limit d) : IsKept limit (d.call source.noting .next) := by
  cases buffer : d.paging.buffer with
  | cons row rest =>
    simp only [Dialogue.call, Paging.next, buffer]
    exact kept.reply (.row (some (.ok row))) buffer rfl
  | nil =>
    cases goesOn : d.paging.finished with
    | true =>
      simp only [Dialogue.call, Paging.next_eq_of_over goesOn buffer]
      exact kept.reply (.row none) rfl rfl
    | false =>
      obtain ⟨trip, store, asked, fetched⟩ := Paging.nextPage_noting source goesOn d.store
      simp only [Dialogue.call, Paging.next, buffer, fetched]
      rcases page : trip.page with e | _ | ⟨row, rest⟩
      · exact kept.fetched_past goesOn source.key asked store (.row (some (.error e)))
          (Trip.rows_of_error page).symm (by rw [page]; rfl)
      · exact kept.fetched_past goesOn source.key asked store (.row none)
          (Trip.rows_of_ok page).symm (by rw [page]; rfl)
      · refine kept.fetched goesOn source.key asked store (.row (some (.ok row))) rest ?_
          (by rw [page]; rfl) fun none => absurd none (Paging.past_pages_ne_zero source.key page)
        rw [buffer, Trip.rows_of_ok page]
        rfl

theorem call_prime (kept : IsKept limit d) : IsKept limit (d.call source.noting .prime) := by
  simp only [Dialogue.call, Paging.prime]
  split
  · rename_i none
    cases goesOn : d.paging.finished with
    | true =>
      simp only [Paging.nextPage_of_finished goesOn]
      exact kept.reply (.primed (.ok ())) rfl rfl
    | false =>
      obtain ⟨trip, store, asked, fetched⟩ := Paging.nextPage_noting source goesOn d.store
      simp only [fetched]
      rcases page : trip.page with e | rows
      · exact kept.fetched_past goesOn source.key asked store (.primed (.error e))
          (Trip.rows_of_error page).symm (by rw [page]; rfl)
      · refine kept.fetched goesOn source.key asked store (.primed (.ok ())) rows ?_
          (by rw [page]; rfl) fun none => absurd none (Paging.past_pages_ne_zero source.key page)
        rw [kept.fresh none, Trip.rows_of_ok page]
        rfl
  · exact kept.reply (.primed (.ok ())) rfl rfl

/-- Every call keeps what was answered in step with the pages. -/
theorem call (kept : IsKept limit d) (draw : Draw) : IsKept limit (d.call source.noting draw) := by
  cases draw with
  | next => exact kept.call_next
  | page => exact kept.call_page
  | prime => exact kept.call_prime

theorem callAll (kept : IsKept limit d) (draws : List Draw) :
    IsKept limit (Dialogue.callAll source.noting draws d) := by
  induction draws generalizing d with
  | nil => exact kept
  | cons draw rest ih => exact ih (kept.call draw)

/-- What is fetched up to a limit is delivered, held back, or still wanted. -/
theorem length_rows_add (kept : IsKept limit d) : ∀ most ∈ limit, ∃ left,
    d.paging.remaining = some left ∧
      (d.replies.flatMap Reply.rows).length + d.paging.buffer.length + left = most := by
  intro most isLimit
  have within := kept.tallies.within most isLimit
  have counted := kept.rows.length_eq
  rw [List.length_append] at counted
  refine ⟨_, ?_, (?_ : _ + (most - (d.store.trips.flatMap Trip.rows).length) = most)⟩
  · rw [kept.tallies.remaining, Option.mem_def.mp isLimit]
    rfl
  · omega

/-- No page but the last one could not be read. -/
theorem length_errors_le (kept : IsKept limit d) :
    (d.store.trips.filterMap (error? ·.answer)).length ≤ 1 := by
  rcases List.eq_nil_or_concat d.store.trips with none | ⟨earlier, last, split⟩
  · rw [none]
    exact Nat.zero_le _
  · rw [split, List.concat_eq_append]
    have noneEarlier : earlier.filterMap (error? ·.answer) = [] := by
      refine List.filterMap_eq_nil_iff.mpr fun trip member => ?_
      refine Trip.error?_of_not_isLast fun isLast => ?_
      refine kept.tallies.stops earlier last [] (by rw [split, List.concat_eq_append]) ?_
      exact .inl ⟨trip, member, isLast⟩
    rw [List.filterMap_append, noneEarlier, List.nil_append]
    exact List.length_filterMap_le _ _

end IsKept

/-! ### Reads that are over -/

/-- What is answered from the buffer of a read that is over. -/
def fromBuffer : List Draw → List τ → List (Reply τ)
  | [], _ => []
  | .next :: draws, buffer => .row (buffer.head?.map .ok) :: fromBuffer draws buffer.tail
  | .page :: draws, buffer => .page none :: fromBuffer draws buffer
  | .prime :: draws, buffer => .primed (.ok ()) :: fromBuffer draws buffer

namespace Dialogue

variable {source : Source σ κ τ} {d : Dialogue σ κ τ}

/-- A read that is over answers a call from its buffer. -/
theorem call_of_finished (isOver : d.paging.finished = true) (draw : Draw) :
    d.call source draw =
      { d with
        paging := { d.paging with buffer := d.paging.buffer.drop ([draw].count .next) }
        replies := d.replies ++ fromBuffer [draw] d.paging.buffer } := by
  have noPage : d.paging.nextPage source d.store = (none, d.paging, d.store) :=
    Paging.nextPage_of_finished isOver
  cases draw with
  | next =>
    cases buffer : d.paging.buffer with
    | nil =>
      have same : ({ d.paging with buffer := [] } : Paging κ τ) = d.paging := by rw [← buffer]
      simp [call, Paging.next, buffer, noPage, fromBuffer, same]
    | cons row rest => simp [call, Paging.next, buffer, fromBuffer]
  | page => simp [call, noPage, fromBuffer]
  | prime => simp [call, Paging.prime, noPage, fromBuffer]

/-- A read that is over answers every call from its buffer, and does nothing else. -/
theorem callAll_of_finished (isOver : d.paging.finished = true) (draws : List Draw) :
    callAll source draws d =
      { d with
        paging := { d.paging with buffer := d.paging.buffer.drop (draws.count .next) }
        replies := d.replies ++ fromBuffer draws d.paging.buffer } := by
  induction draws generalizing d with
  | nil => simp [callAll, fromBuffer]
  | cons draw rest ih =>
    rw [callAll, List.foldl_cons, ← callAll, call_of_finished isOver]
    refine (ih ?_).trans ?_
    · exact isOver
    · cases draw <;> simp [fromBuffer]

end Dialogue

/-! ### Safety -/

/-- The read of a source that notes its pages, after some calls from the start. -/
def notedRead (source : Source σ κ τ) (batch : Nat) (limit : Option Nat) (draws : List Draw)
    (store : σ) : Dialogue (WithTrips σ κ τ) κ τ :=
  .callAll source.noting draws { paging := .start batch limit, store := { store } }

/-- A read stops in time and delivers no more than it may, and nothing twice. -/
structure IsSafe (source : Source σ κ τ) (batch : Nat) (limit : Option Nat) (draws : List Draw)
    (store : σ) (d : Dialogue (WithTrips σ κ τ) κ τ) : Prop where
  /-- Noting the pages changes nothing of the read. -/
  isNoted : Dialogue.callAll source draws { paging := .start batch limit, store } = d.unnoted
  /-- Whatever rows the next page may have, no more are counted off than are still wanted. -/
  countsOff : ∀ left ∈ d.paging.remaining, ∀ rows : List τ,
    (rows.take d.paging.pageSize).length ≤ left
  /-- Of the rows that are wanted, some are delivered, some held back, and the others still
  wanted. -/
  wanted : ∀ most ∈ limit, ∃ left, d.paging.remaining = some left ∧
    (d.replies.flatMap Reply.rows).length + d.paging.buffer.length + left = most
  limited : ∀ most ∈ limit, (d.replies.flatMap Reply.rows).length ≤ most
  /-- Each row of a page is delivered or held back, once. -/
  rows : (d.replies.flatMap Reply.rows ++ d.paging.buffer).Perm (d.store.trips.flatMap Trip.rows)
  /-- No page is asked for once the read is over. -/
  stops : ∀ before trip after, d.store.trips = before ++ trip :: after → ¬ IsOver limit before
  /-- From then on all is answered from the buffer. -/
  settled : IsOver limit d.store.trips → ∀ later, d.callAll source.noting later =
    { d with
      paging := { d.paging with buffer := d.paging.buffer.drop (later.count .next) }
      replies := d.replies ++ fromBuffer later d.paging.buffer }
  /-- The errors that are delivered are those of the pages. -/
  errors : d.replies.flatMap Reply.errors = d.store.trips.filterMap (error? ·.answer)
  errorOnce : (d.replies.flatMap Reply.errors).length ≤ 1
  /-- To ask for a row when none is held back is to ask again with the next page in the buffer. -/
  asksAgain : d.paging.buffer = [] →
    d.paging.next source.noting d.store = d.paging.refill source.noting d.store

/-- However a read of a source is called on, and whatever the source does, the read is safe. -/
theorem reads_safe (source : Source σ κ τ) (batch : Nat) (limit : Option Nat) (draws : List Draw)
    (store : σ) :
    IsSafe source batch limit draws store (notedRead source batch limit draws store) := by
  have kept : IsKept limit (notedRead source batch limit draws store) :=
    (IsKept.start batch limit store).callAll draws
  constructor
  case isNoted =>
    exact Dialogue.callAll_unnoted source draws { paging := .start batch limit, store := { store } }
  case countsOff =>
    intro left isLeft rows
    exact Nat.le_trans (List.length_take_le _ _) (Paging.pageSize_le left isLeft)
  case wanted => exact kept.length_rows_add
  case limited =>
    intro most isLimit
    obtain ⟨left, -, total⟩ := kept.length_rows_add most isLimit
    omega
  case rows => exact kept.rows
  case stops => exact kept.tallies.stops
  case settled =>
    exact fun isOver => Dialogue.callAll_of_finished (kept.tallies.finished_iff.mpr isOver)
  case errors => exact kept.errors
  case errorOnce => exact kept.errors ▸ kept.length_errors_le
  case asksAgain => exact fun empty => Paging.next_of_empty kept.tallies.pageSize_pos empty _

/-- A first page that could not be read is not asked for again. -/
example : (notedRead (⟨id, fun _ _ _ => (.error (.unavailable "down"), ())⟩ : Source Unit Nat Nat) 2
    none [.prime, .prime, .page, .next] ()).store.trips.length = 1 := by
  decide

end Mailroom
