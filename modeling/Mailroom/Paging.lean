import Mailroom.Step
/-!
Reading ordered rows page by page.

A `Source` returns rows whose keys come after a cursor, at most as many as asked for. A `Paging`
remembers how far a read has come: each page is asked for with the key of the last row of the page
before it, and a page shorter than asked for is the last. Rows that end exactly at the end of a page
cost one more, empty, page. A page that cannot be read ends the read, and its error is reported
once.
-/

namespace Mailroom

variable {σ κ τ : Type}

/-- Rows of type `τ` in a store of type `σ`, in the order of their keys. -/
structure Source (σ κ τ : Type) where
  /-- The key of a row. -/
  key : τ → κ
  /-- The first rows, at most as many as asked for, after a cursor. -/
  fetch : Option κ → Nat → Step σ (List τ)

/-- How far a read has come. -/
structure Paging (κ τ : Type) where
  /-- The number of rows of a page. -/
  batch : Nat
  /-- The number of rows still wanted, if they are limited. -/
  remaining : Option Nat
  /-- The key of the last row fetched. -/
  cursor : Option κ := none
  /-- Rows fetched and not yet delivered. -/
  buffer : List τ := []
  /-- No page follows. -/
  finished : Bool
  /-- The number of pages fetched. -/
  pages : Nat := 0

namespace Paging

/-- The start of a read: pages hold at least one row, and a read of no rows is over. -/
def start (batch : Nat) (limit : Option Nat) : Paging κ τ where
  batch := max batch 1
  remaining := limit
  finished := limit == some 0

/-- The number of rows to ask for next. -/
def pageSize (paging : Paging κ τ) : Nat :=
  match paging.remaining with
  | some remaining => min remaining paging.batch
  | none => paging.batch

/-- The state of a read after a page of rows, of which no more than asked for are counted. -/
def advance (paging : Paging κ τ) (key : τ → κ) (rows : List τ) : Paging κ τ :=
  { paging with
    pages := paging.pages + 1
    remaining := paging.remaining.map (· - rows.length)
    finished := rows.length < paging.pageSize
      || (paging.remaining.map (· - rows.length)) == some 0
    cursor := (rows.getLast?.map key).or paging.cursor }

/-- Fetches the next page, past the buffer. There is none once the read is over. -/
def nextPage (source : Source σ κ τ) (paging : Paging κ τ) (store : σ) :
    Option (Except StoreError (List τ)) × Paging κ τ × σ :=
  if paging.finished then (none, paging, store)
  else
    match source.fetch paging.cursor paging.pageSize store with
    | (.error e, store) => (some (.error e), { paging with finished := true }, store)
    | (.ok rows, store) =>
      let rows := rows.take paging.pageSize
      (some (.ok rows), paging.advance source.key rows, store)

/-- Fetches the first page into the buffer, if none was fetched yet. -/
def prime (source : Source σ κ τ) (paging : Paging κ τ) (store : σ) :
    Except StoreError Unit × Paging κ τ × σ :=
  if paging.pages = 0 then
    match paging.nextPage source store with
    | (none, paging, store) => (.ok (), paging, store)
    | (some (.ok rows), paging, store) => (.ok (), { paging with buffer := rows }, store)
    | (some (.error e), paging, store) => (.error e, paging, store)
  else (.ok (), paging, store)

/-- Delivers the next row: from the buffer, or else the first of the next page. An empty page is
short, so nothing follows it. -/
def next (source : Source σ κ τ) (paging : Paging κ τ) (store : σ) :
    Option (Except StoreError τ) × Paging κ τ × σ :=
  match paging.buffer with
  | row :: rest => (some (.ok row), { paging with buffer := rest }, store)
  | [] =>
    match paging.nextPage source store with
    | (none, paging, store) => (none, paging, store)
    | (some (.error e), paging, store) => (some (.error e), paging, store)
    | (some (.ok []), paging, store) => (none, paging, store)
    | (some (.ok (row :: rest)), paging, store) =>
      (some (.ok row), { paging with buffer := rest }, store)

/-- Delivers every row that is left, when at most `pages` more pages can be fetched. -/
def rest (source : Source σ κ τ) : Nat → Paging κ τ → σ →
    List (Except StoreError τ) × Paging κ τ × σ
  | 0, paging, store => (paging.buffer.map .ok, { paging with buffer := [] }, store)
  | pages + 1, paging, store =>
    let buffered := paging.buffer.map .ok
    match { paging with buffer := [] }.nextPage source store with
    | (none, paging, store) => (buffered, paging, store)
    | (some (.error e), paging, store) => (buffered ++ [.error e], paging, store)
    | (some (.ok rows), paging, store) =>
      let (more, paging, store) := rest source pages { paging with buffer := rows } store
      (buffered ++ more, paging, store)

end Paging

/-- A read in progress: what is read, and how far. -/
structure Scan (σ κ τ : Type) where
  source : Source σ κ τ
  paging : Paging κ τ

namespace Scan

/-- A read from the start. -/
def start (source : Source σ κ τ) (batch : Nat) (limit : Option Nat) : Scan σ κ τ :=
  ⟨source, .start batch limit⟩

@[inherit_doc Paging.nextPage]
def nextPage (scan : Scan σ κ τ) (store : σ) :
    Option (Except StoreError (List τ)) × Scan σ κ τ × σ :=
  let (answer, paging, store) := scan.paging.nextPage scan.source store
  (answer, { scan with paging }, store)

@[inherit_doc Paging.prime]
def prime (scan : Scan σ κ τ) (store : σ) : Except StoreError Unit × Scan σ κ τ × σ :=
  let (answer, paging, store) := scan.paging.prime scan.source store
  (answer, { scan with paging }, store)

@[inherit_doc Paging.next]
def next (scan : Scan σ κ τ) (store : σ) : Option (Except StoreError τ) × Scan σ κ τ × σ :=
  let (answer, paging, store) := scan.paging.next scan.source store
  (answer, { scan with paging }, store)

@[inherit_doc Paging.rest]
def rest (pages : Nat) (scan : Scan σ κ τ) (store : σ) :
    List (Except StoreError τ) × Scan σ κ τ × σ :=
  let (answer, paging, store) := scan.paging.rest scan.source pages store
  (answer, { scan with paging }, store)

/-- A read whose rows are presented by a function; each row keeps its key beside it. -/
def present {υ : Type} (f : τ → υ) (scan : Scan σ κ τ) : Scan σ κ (κ × υ) :=
  let row (r : τ) : κ × υ := (scan.source.key r, f r)
  { source := { key := Prod.fst, fetch := fun after n => (·.map row) <$> scan.source.fetch after n }
    paging := { scan.paging with buffer := scan.paging.buffer.map row } }

end Scan

end Mailroom
