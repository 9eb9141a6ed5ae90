import Mailroom.Proofs.Projection
import Mailroom.Proofs.Scans.Pages
/-!
Reads whose store is written while they are under way.

A client takes rows one by one or page by page, and between any two of its moves the store may be
written (`Move.runAll`). To speak of the pages that were fetched, the read is run on a store that is
watched: beside it stand the pages and the stores that they were fetched from. One move after
another keeps what was delivered in step with the pages (`IsUnderWay.run`), so whatever was written,
the read delivers each row as it was on its page, ascending, and skips none that was always there
(`runAll_committed`).
-/

namespace Mailroom

variable {σ τ μ : Type}

/-- A read under way: how far it has come, its store, and the rows delivered so far. -/
structure Reading (σ τ : Type) where
  paging : Paging Uid τ
  store : σ
  delivered : List τ := []

/-- What happens next: a client moves, or the store is written. -/
inductive Move (μ : Type) where
  | written (mutation : μ)
  /-- The client asks for the next row. -/
  | next
  /-- The client asks for the next page, unless rows of this one are left. -/
  | page
  /-- The client has the first page fetched. -/
  | prime

namespace Reading

/-- What was answered, if a read did not end or fail. -/
def answered {α : Type} (answer : Option (Except StoreError α)) : Option α :=
  answer.bind Except.toOption

/-- Takes the next row. -/
def next (source : Source σ Uid τ) (r : Reading σ τ) : Reading σ τ :=
  let outcome := r.paging.next source r.store
  { paging := outcome.2.1
    store := outcome.2.2
    delivered := r.delivered ++ (answered outcome.1).toList }

/-- Takes the next page, unless rows of this one are left. -/
def page (source : Source σ Uid τ) (r : Reading σ τ) : Reading σ τ :=
  match r.paging.buffer with
  | _ :: _ => r
  | [] =>
    let outcome := r.paging.nextPage source r.store
    { paging := outcome.2.1
      store := outcome.2.2
      delivered := r.delivered ++ (answered outcome.1).getD [] }

/-- Has the first page fetched. -/
def prime (source : Source σ Uid τ) (r : Reading σ τ) : Reading σ τ :=
  let outcome := r.paging.prime source r.store
  { r with
    paging := outcome.2.1
    store := outcome.2.2 }

end Reading

/-- Makes a move. -/
def Move.run (apply : μ → σ → σ) (source : Source σ Uid τ) : Move μ → Reading σ τ → Reading σ τ
  | written mutation, r => { r with store := apply mutation r.store }
  | next, r => r.next source
  | page, r => r.page source
  | prime, r => r.prime source

/-- Makes moves one after another. -/
def Move.runAll (apply : μ → σ → σ) (source : Source σ Uid τ) (moves : List (Move μ))
    (r : Reading σ τ) : Reading σ τ :=
  moves.foldl (fun r move => move.run apply source r) r

/-! ### Watched stores -/

/-- A store beside the pages that were fetched. -/
structure Watched (σ τ : Type) where
  store : σ
  fetched : List (Fetched σ τ) := []

/-- Writes down each page that is fetched. -/
def Source.watched (source : Source σ Uid τ) : Source (Watched σ τ) Uid τ where
  key := source.key
  fetch after limit := fun w =>
    let (answer, store) := source.fetch after limit w.store
    (answer, { store, fetched := w.fetched ++ [⟨w.store, after, limit, answer⟩] })

theorem Source.fetch_watched {source : Source σ Uid τ} {after : Option Uid} {limit : Nat}
    {w : Watched σ τ} {answer : Except StoreError (List τ)} {store : σ}
    (done : source.fetch after limit w.store = (answer, store)) :
    source.watched.fetch after limit w
      = (answer, { store, fetched := w.fetched ++ [⟨w.store, after, limit, answer⟩] }) := by
  unfold watched
  simp only [done]

/-- Writes to the store. -/
def Watched.applied (apply : μ → σ → σ) (mutation : μ) (w : Watched σ τ) : Watched σ τ :=
  { w with store := apply mutation w.store }

/-- The read without the pages. -/
def Reading.unwatched (r : Reading (Watched σ τ) τ) : Reading σ τ :=
  ⟨r.paging, r.store.store, r.delivered⟩

theorem watched_projects (source : Source σ Uid τ) :
    Source.Projects Watched.store source.watched source := ⟨rfl, fun _ _ _ => rfl⟩

/-- Watching a store changes nothing of a move. -/
theorem Move.run_unwatched (apply : μ → σ → σ) (source : Source σ Uid τ) (move : Move μ)
    (r : Reading (Watched σ τ) τ) :
    move.run apply source r.unwatched
      = (move.run (Watched.applied apply) source.watched r).unwatched := by
  cases move with
  | written mutation => rfl
  | next =>
    have same := next_projects (watched_projects source) r.paging r.store
    show Reading.next source r.unwatched = (Reading.next source.watched r).unwatched
    unfold Reading.next Reading.unwatched
    simp only [same]
  | page =>
    have same := nextPage_projects (watched_projects source) r.paging r.store
    show Reading.page source r.unwatched = (Reading.page source.watched r).unwatched
    unfold Reading.page
    cases buffer : r.paging.buffer with
    | nil =>
      unfold Reading.unwatched
      simp only [same, buffer]
    | cons row rest =>
      unfold Reading.unwatched
      simp only [buffer]
  | prime =>
    have same := prime_projects (watched_projects source) r.paging r.store
    show Reading.prime source r.unwatched = (Reading.prime source.watched r).unwatched
    unfold Reading.prime Reading.unwatched
    simp only [same]

theorem Move.runAll_unwatched (apply : μ → σ → σ) (source : Source σ Uid τ)
    (moves : List (Move μ)) (r : Reading (Watched σ τ) τ) :
    Move.runAll apply source moves r.unwatched
      = (Move.runAll (Watched.applied apply) source.watched moves r).unwatched := by
  induction moves generalizing r with
  | nil => rfl
  | cons move rest ih =>
    show Move.runAll apply source rest (move.run apply source r.unwatched) = _
    rw [Move.run_unwatched]
    exact ih _

/-! ### Reads under way -/

/-- A source whose pages hold the first rows past a cursor that match. -/
structure Source.IsPaged (source : Source σ Uid τ) (isFit : σ → Prop) (Matches : σ → Uid → Prop)
    (Stores : σ → τ → Prop) : Prop where
  looks : ∀ after limit store, (source.fetch after limit store).2 = store
  page : ∀ after limit store, isFit store → ∀ rows,
    (source.fetch after limit store).1 = .ok rows →
    IsPage (Matches store) after limit (rows.map source.key) ∧ ∀ row ∈ rows, Stores store row

/-- What was delivered and what is held back are the rows of the pages. -/
structure IsUnderWay (isFit : σ → Prop) (Matches : σ → Uid → Prop) (Stores : σ → τ → Prop)
    (key : τ → Uid) (r : Reading (Watched σ τ) τ) : Prop where
  fit : isFit r.store.store
  paged : Paged key Matches r.store.fetched
  stored : ∀ page ∈ r.store.fetched, ∀ row ∈ page.rows, Stores page.store row
  rows : r.delivered ++ r.paging.buffer = rowsOf r.store.fetched
  cursor : r.paging.cursor = lastUid? key (rowsOf r.store.fetched)
  /-- No row is held back before a page was fetched. -/
  fresh : r.paging.pages = 0 → r.paging.buffer = []

namespace IsUnderWay

variable {isFit : σ → Prop} {Matches : σ → Uid → Prop} {Stores : σ → τ → Prop}
  {source : Source σ Uid τ} {r : Reading (Watched σ τ) τ}

theorem start {store : σ} (fit : isFit store) (batch : Nat) (limit : Option Nat) :
    IsUnderWay isFit Matches Stores source.key
      ({ paging := .start batch limit, store := { store } } : Reading (Watched σ τ) τ) where
  fit := fit
  paged := .start
  stored _ := nofun
  rows := rfl
  cursor := rfl
  fresh _ := rfl

/-- Rows that are delivered leave the buffer from the front. -/
theorem deliver (underWay : IsUnderWay isFit Matches Stores source.key r) {front back : List τ}
    (split : r.paging.buffer = front ++ back) :
    IsUnderWay isFit Matches Stores source.key
      { r with
        paging := { r.paging with buffer := back }
        delivered := r.delivered ++ front } where
  fit := underWay.fit
  paged := underWay.paged
  stored := underWay.stored
  rows := by
    rw [List.append_assoc, ← split]
    exact underWay.rows
  cursor := underWay.cursor
  fresh none := by
    have empty := underWay.fresh none
    rw [split, List.append_eq_nil_iff] at empty
    exact empty.2

/-- After a page was fetched its rows are held back. -/
theorem fetched (underWay : IsUnderWay isFit Matches Stores source.key r)
    (empty : r.paging.buffer = []) (page : Fetched σ τ) (asked : page.after = r.paging.cursor)
    (fit : isFit page.store)
    (isPage : ∀ rows, page.answer = .ok rows →
      IsPage (Matches page.store) page.after page.limit (rows.map source.key) ∧
        ∀ row ∈ rows, Stores page.store row)
    (paging : Paging Uid τ) (buffer : paging.buffer = page.rows)
    (cursor : paging.cursor = (lastUid? source.key page.rows).or r.paging.cursor)
    (fresh : paging.pages = 0 → paging.buffer = []) :
    IsUnderWay isFit Matches Stores source.key
      { r with
        paging
        store := { store := page.store, fetched := r.store.fetched ++ [page] } } where
  fit := fit
  paged := .next underWay.paged (asked.trans underWay.cursor)
    fun rows answered => (isPage rows answered).1
  stored other member row onPage := by
    rcases List.mem_append.mp member with earlier | isLast
    · exact underWay.stored other earlier row onPage
    · cases List.mem_singleton.mp isLast
      unfold Fetched.rows at onPage
      split at onPage
      · rename_i rows answered
        exact (isPage rows answered).2 row onPage
      · cases onPage
  rows := by
    have before := underWay.rows
    rw [empty, List.append_nil] at before
    rw [rowsOf_concat, buffer, before]
  cursor := by
    rw [rowsOf_concat, cursor, underWay.cursor]
    unfold lastUid?
    rw [List.getLast?_append, Option.map_or]
  fresh := fresh

/-- Once every row was delivered, the rows of the next page are what is held back. -/
theorem nextPage (isPaged : source.IsPaged isFit Matches Stores)
    (underWay : IsUnderWay isFit Matches Stores source.key r) (empty : r.paging.buffer = [])
    {answer : Option (Except StoreError (List τ))} {paging : Paging Uid τ} {store : Watched σ τ}
    (done : r.paging.nextPage source.watched r.store = (answer, paging, store)) :
    paging.buffer = [] ∧ IsUnderWay isFit Matches Stores source.key
      { r with
        paging := { paging with buffer := (Reading.answered answer).getD [] }
        store } := by
  unfold Paging.nextPage at done
  split at done
  · cases done
    have same := underWay.deliver (show r.paging.buffer = [] ++ [] from empty)
    rw [List.append_nil] at same
    exact ⟨empty, same⟩
  · have looks := isPaged.looks r.paging.cursor r.paging.pageSize r.store.store
    have page := isPaged.page r.paging.cursor r.paging.pageSize r.store.store underWay.fit
    rcases fetch : source.fetch r.paging.cursor r.paging.pageSize r.store.store with
      ⟨fetched, after⟩
    rw [fetch] at looks page
    cases looks
    rw [Source.fetch_watched fetch] at done
    have held := underWay.fetched empty
      ⟨r.store.store, r.paging.cursor, r.paging.pageSize, fetched⟩ rfl underWay.fit page
    cases fetched with
    | error e =>
      cases done
      exact ⟨empty, held _ rfl rfl fun _ => rfl⟩
    | ok rows =>
      have short : rows.take r.paging.pageSize = rows := by
        have isPage := (page rows rfl).1
        exact List.take_of_length_le (List.length_map source.key ▸ isPage.length_le)
      simp only [short] at done
      cases done
      exact ⟨empty, held _ rfl rfl nofun⟩

theorem next (isPaged : source.IsPaged isFit Matches Stores)
    (underWay : IsUnderWay isFit Matches Stores source.key r) :
    IsUnderWay isFit Matches Stores source.key (r.next source.watched) := by
  unfold Reading.next Paging.next
  cases buffer : r.paging.buffer with
  | cons row rest => exact underWay.deliver (show r.paging.buffer = [row] ++ rest from buffer)
  | nil =>
    rcases done : r.paging.nextPage source.watched r.store with
      ⟨_ | e | _ | ⟨row, rest⟩, ⟨_, _, _, _, _, _⟩, w⟩
    all_goals
      obtain ⟨empty, held⟩ := underWay.nextPage isPaged buffer done
      cases empty
    · exact held.deliver (show [] = [] ++ [] from rfl)
    · exact held.deliver (show [] = [] ++ [] from rfl)
    · exact held.deliver (show [] = [] ++ [] from rfl)
    · exact held.deliver (show row :: rest = [row] ++ rest from rfl)

theorem page (isPaged : source.IsPaged isFit Matches Stores)
    (underWay : IsUnderWay isFit Matches Stores source.key r) :
    IsUnderWay isFit Matches Stores source.key (r.page source.watched) := by
  unfold Reading.page
  split
  · exact underWay
  · rename_i buffer
    rcases done : r.paging.nextPage source.watched r.store with ⟨answer, ⟨_, _, _, _, _, _⟩, w⟩
    obtain ⟨empty, held⟩ := underWay.nextPage isPaged buffer done
    cases empty
    exact held.deliver (List.append_nil _).symm

theorem prime (isPaged : source.IsPaged isFit Matches Stores)
    (underWay : IsUnderWay isFit Matches Stores source.key r) :
    IsUnderWay isFit Matches Stores source.key (r.prime source.watched) := by
  unfold Reading.prime Paging.prime
  split
  · rename_i none
    rcases done : r.paging.nextPage source.watched r.store with
      ⟨_ | e | rows, ⟨_, _, _, _, _, _⟩, w⟩
    all_goals
      obtain ⟨empty, held⟩ := underWay.nextPage isPaged (underWay.fresh none) done
      cases empty
      exact held
  · exact underWay

/-- Every move keeps what was delivered in step with the pages. -/
theorem run (isPaged : source.IsPaged isFit Matches Stores) {apply : μ → σ → σ}
    (fits : ∀ mutation store, isFit store → isFit (apply mutation store))
    (underWay : IsUnderWay isFit Matches Stores source.key r) (move : Move μ) :
    IsUnderWay isFit Matches Stores source.key
      (move.run (Watched.applied apply) source.watched r) := by
  cases move with
  | written mutation => exact { underWay with fit := fits mutation _ underWay.fit }
  | next => exact underWay.next isPaged
  | page => exact underWay.page isPaged
  | prime => exact underWay.prime isPaged

theorem runAll (isPaged : source.IsPaged isFit Matches Stores) {apply : μ → σ → σ}
    (fits : ∀ mutation store, isFit store → isFit (apply mutation store))
    (underWay : IsUnderWay isFit Matches Stores source.key r) (moves : List (Move μ)) :
    IsUnderWay isFit Matches Stores source.key
      (Move.runAll (Watched.applied apply) source.watched moves r) := by
  induction moves generalizing r with
  | nil => exact underWay
  | cons move rest ih => exact ih (underWay.run isPaged fits move)

/-- The rows that were delivered are the first ones of the pages. -/
theorem delivered_prefix (underWay : IsUnderWay isFit Matches Stores source.key r) :
    r.delivered <+: rowsOf r.store.fetched := ⟨_, underWay.rows⟩

theorem delivered_ascending (underWay : IsUnderWay isFit Matches Stores source.key r) :
    (r.delivered.map source.key).Pairwise (· < ·) :=
  underWay.paged.ascending.sublist (underWay.delivered_prefix.sublist.map _)

/-- A number on a page has been delivered, if one that is not less has been. -/
theorem mem_delivered_of_le (underWay : IsUnderWay isFit Matches Stores source.key r) {uid : Uid}
    (onPage : uid ∈ (rowsOf r.store.fetched).map source.key)
    (reached : ∃ row ∈ r.delivered, uid ≤ source.key row) :
    uid ∈ r.delivered.map source.key := by
  obtain ⟨row, delivered, le⟩ := reached
  have ascending := underWay.paged.ascending
  rw [← underWay.rows, List.map_append, List.pairwise_append] at ascending
  rw [← underWay.rows, List.map_append, List.mem_append] at onPage
  rcases onPage with isDelivered | isHeld
  · exact isDelivered
  · have later := ascending.2.2 _ (List.mem_map_of_mem delivered) uid isHeld
    exact absurd le (Nat.not_le.mpr later)

end IsUnderWay

/-! ### What a read delivers -/

/-- The read of a watched store from the start, after some moves. -/
def watchedRead (apply : μ → σ → σ) (scan : Scan σ Uid τ) (moves : List (Move μ)) (store : σ) :
    Reading (Watched σ τ) τ :=
  Move.runAll (Watched.applied apply) scan.source.watched moves
    { paging := scan.paging, store := { store } }

/-- A read of committed rows: each row is delivered as it stood when its page was fetched, none is
delivered twice, and none is skipped that matched whenever a page was fetched. -/
structure ReadsCommitted (apply : μ → σ → σ) (scan : Scan σ Uid τ) (Matches : σ → Uid → Prop)
    (Stores : σ → τ → Prop) (moves : List (Move μ)) (store : σ) : Prop where
  /-- The read of the watched store is the read of the store. -/
  isWatched : Move.runAll apply scan.source moves { paging := scan.paging, store }
    = (watchedRead apply scan moves store).unwatched
  ascending : ((watchedRead apply scan moves store).delivered.map scan.source.key).Pairwise (· < ·)
  committed : ∀ row ∈ (watchedRead apply scan moves store).delivered,
    ∃ page ∈ (watchedRead apply scan moves store).store.fetched,
      row ∈ page.rows ∧ Stores page.store row ∧ Matches page.store (scan.source.key row)
  complete : ∀ uid,
    (∀ page ∈ (watchedRead apply scan moves store).store.fetched, Matches page.store uid) →
    (EndsShort (watchedRead apply scan moves store).store.fetched ∧
        (watchedRead apply scan moves store).paging.buffer = [] ∨
      ∃ row ∈ (watchedRead apply scan moves store).delivered, uid ≤ scan.source.key row) →
    uid ∈ (watchedRead apply scan moves store).delivered.map scan.source.key

/-- Whatever is written while a read of pages is under way, it reads committed rows. -/
theorem runAll_committed {scan : Scan σ Uid τ} {isFit : σ → Prop} {Matches : σ → Uid → Prop}
    {Stores : σ → τ → Prop} (isPaged : scan.source.IsPaged isFit Matches Stores)
    {apply : μ → σ → σ} (fits : ∀ mutation store, isFit store → isFit (apply mutation store))
    {batch : Nat} {limit : Option Nat} (starts : scan.paging = .start batch limit)
    (moves : List (Move μ)) {store : σ} (fit : isFit store) :
    ReadsCommitted apply scan Matches Stores moves store := by
  have underWay : IsUnderWay isFit Matches Stores scan.source.key
      (watchedRead apply scan moves store) := by
    refine IsUnderWay.runAll isPaged fits ?_ moves
    rw [starts]
    exact .start fit batch limit
  refine ⟨?_, underWay.delivered_ascending, fun row delivered => ?_, fun uid isMatch ends => ?_⟩
  · exact Move.runAll_unwatched apply scan.source moves
      { paging := scan.paging, store := { store } }
  · have onPage := underWay.delivered_prefix.mem delivered
    obtain ⟨page, fetched, onPage⟩ := List.mem_flatMap.mp onPage
    exact ⟨page, fetched, onPage, underWay.stored page fetched row onPage,
      underWay.paged.matches_of_mem fetched onPage⟩
  · rcases ends with ⟨short, empty⟩ | reached
    · have onPage := underWay.paged.covers_of_short short isMatch
      have rows := underWay.rows
      rw [empty, List.append_nil] at rows
      rwa [rows]
    · refine underWay.mem_delivered_of_le ?_ reached
      refine (underWay.paged.covers isMatch).resolve_right fun past => ?_
      obtain ⟨row, delivered, le⟩ := reached
      have before : scan.source.key row < uid :=
        past _ (List.mem_map_of_mem (underWay.delivered_prefix.mem delivered))
      exact absurd le (Nat.not_le.mpr before)

end Mailroom
