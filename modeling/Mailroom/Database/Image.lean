import Mailroom.Database.Cell
import Mailroom.Database.Engine
/-!
Files of a database as octets: the header, the pages and the rows of a relation in them.

A file is a row of pages of one size. The first page begins with a header of a hundred octets,
which `Image.ofOctets` checks in the order of the engine, so that of several faults the first one
counts. A relation is a tree of pages: leaves hold rows, and the pages above them lead to other
pages. `Image.rows` reads a relation from its first page on. Numbers have their most significant
octet first.
-/

namespace Mailroom.Database

/-- A file of a database whose header is sound. -/
structure Image where
  octets : Array UInt8
  pageSize : Nat
  /-- Octets at the end of each page that are put to no use. -/
  reserved : Nat
  /-- The number of pages. -/
  pages : Nat

namespace Image

/-- The number that so many octets make from a position on; behind the end there are zeros. -/
def numberAt (octets : Array UInt8) (position : Nat) : Nat → Nat
  | 0 => 0
  | count + 1 =>
    numberAt octets position count * 256 + (octets[position + count]?.getD 0).toNat

/-- The signed number that so many octets make. -/
def signedAt (octets : Array UInt8) (position count : Nat) : Int :=
  let n := numberAt octets position count
  if 2 * n < 1 <<< (8 * count) then n else (n : Int) - (1 <<< (8 * count) : Nat)

/-! ### Header -/

/-- The octets with which every file of a database begins. -/
def magic : Octets := "SQLite format 3".toUTF8.toList ++ [0]

/-- The size of pages that is assumed while it is not known. -/
def assumedSize : Nat := 4096

/-- The size of pages, as the header has it: a power of two from 512 to 65536, which is written as
1. -/
def sizeOf? (octets : Array UInt8) : Option Nat :=
  let size := numberAt octets 16 1 * 256 + numberAt octets 17 1 * 65536
  if (List.range 8).any fun n => size = 512 <<< n then some size else none

/-- The greatest format of the description of relations. -/
def maxFormat : Nat := 4

/-- The number of pages by the header, if it was written together with it, and else by the length of
the file. -/
def countPages (octets : Array UInt8) (length : Nat) : Nat :=
  let counted := numberAt octets 28 4
  if counted = 0 ∨ numberAt octets 24 4 ≠ numberAt octets 92 4 then length else counted

/-- The file that octets make. -/
def ofOctets (octets : Array UInt8) : Except EngineError Image := do
  let size := sizeOf? octets
  let assumed := size.getD assumedSize
  let length := (octets.size + assumed - 1) / assumed
  let pages := countPages octets length
  if (octets.toList.take 16) ≠ magic then throw .fileNotADatabase
  if 2 < numberAt octets 19 1 then throw .fileNotADatabase
  if numberAt octets 21 3 ≠ 0x402020 then throw .fileNotADatabase
  match size with
  | none => throw .fileNotADatabase
  | some pageSize =>
    let reserved := numberAt octets 20 1
    if length < pages then throw .malformedImage
    if pageSize < reserved + 480 then throw .fileNotADatabase
    if maxFormat < numberAt octets 47 1 then throw .unsupportedFormat
    return { octets, pageSize, reserved, pages }

/-- Whether the file may only be read. -/
def isReadOnly (image : Image) : Bool := 2 < numberAt image.octets 18 1

/-- Whether changes are kept in a log beside the file until they are taken over. -/
def hasLog (image : Image) : Bool := numberAt image.octets 19 1 = 2

/-- The version that the relations are marked with. -/
def version (image : Image) : Int := signedAt image.octets 60 4

/-- The octets of a page that are put to use. -/
def usable (image : Image) : Nat := image.pageSize - image.reserved

/-! ### Pages -/

/-- The number that so many octets make, from a position in a page on. -/
def number (image : Image) (page position count : Nat) : Nat :=
  numberAt image.octets ((page - 1) * image.pageSize + position) count

/-- Where the description of a page begins: in the first one after the header. -/
def start (page : Nat) : Nat := if page = 1 then 100 else 0

/-- What kind of page it is. -/
def kind (image : Image) (page : Nat) : Nat := image.number page (start page) 1

/-- The kind of a page that holds rows. -/
def leafKind : Nat := 13

/-- The kind of a page that leads to other pages. -/
def branchKind : Nat := 5

/-- The number of entries of a page. -/
def entryCount (image : Image) (page : Nat) : Nat := image.number page (start page + 3) 2

/-- The position of an entry of a page. -/
def entryAt (image : Image) (page index : Nat) : Nat :=
  let first := start page + (if image.kind page = leafKind then 8 else 12)
  image.number page (first + 2 * index) 2 % image.pageSize

/-- A number that fills as many octets as it needs: of each the low seven bits, and all of the
ninth; with the number the position after it. -/
def shortNumber (read : Nat → Nat) (position : Nat) : Nat × Nat :=
  go 8 position 0
where
  /-- Reads on after seven bits of every octet before. -/
  go : Nat → Nat → Nat → Nat × Nat
    | 0, position, n => (n * 256 + read position, position + 1)
    | left + 1, position, n =>
      let octet := read position
      if octet < 128 then (n * 128 + octet, position + 1)
      else go left (position + 1) (n * 128 + octet % 128)

/-- So many octets of a page. -/
def slice (image : Image) (page position count : Nat) : Octets :=
  (List.range count).map fun i => UInt8.ofNat (image.number page (position + i) 1)

/-- So many octets from a chain of pages, each of which begins with the number of the next one. -/
def chain (image : Image) : Nat → Nat → Nat → Except EngineError Octets
  | 0, _, count => if count = 0 then .ok [] else .error .malformedImage
  | fuel + 1, page, count => do
    if count = 0 then return []
    if page < 2 ∨ image.pages < page then throw .malformedImage
    let here := min count (image.usable - 4)
    return image.slice page 4 here ++ (← image.chain fuel (image.number page 0 4) (count - here))

/-- How many octets of a row lie in its leaf, of so many in all. -/
def localSize (image : Image) (size : Nat) : Nat :=
  let most := image.usable - 35
  let least := (image.usable - 12) * 32 / 255 - 23
  if size ≤ most then size
  else
    let here := least + (size - least) % (image.usable - 4)
    if here ≤ most then here else least

/-- The octets of the row at a position of a leaf. -/
def payload (image : Image) (page position : Nat) : Except EngineError Octets := do
  let read (i : Nat) : Nat := image.number page i 1
  let (size, position) := shortNumber read position
  let (_, position) := shortNumber read position
  let here := image.localSize size
  if image.pageSize < position + here then throw .malformedImage
  let rest ← image.chain (image.pages + 1) (image.number page (position + here) 4) (size - here)
  return image.slice page position here ++ rest

/-! ### Rows -/

/-- The text that octets make, in the way of writing text that the header names. -/
def textOf (image : Image) (octets : Octets) : String :=
  let pairs (first second : Nat) : List Char :=
    (List.range (octets.length / 2)).map fun i =>
      Char.ofNat ((octets.getD (2 * i + first) 0).toNat * 256
        + (octets.getD (2 * i + second) 0).toNat)
  match numberAt image.octets 59 1 % 4 with
  | 2 => String.ofList (pairs 1 0)
  | 3 => String.ofList (pairs 0 1)
  | _ => (String.fromUTF8? ⟨octets.toArray⟩).getD ""

/-- The number with a binary point that eight octets make. -/
def realOf (octets : Array UInt8) : Cell :=
  let bits := numberAt octets 0 8
  let power := bits >>> 52 % 2048
  let fraction := bits % (1 <<< 52)
  let significand := if power = 0 then fraction else fraction + (1 <<< 52)
  let units : Int := (significand <<< (power - 1) : Nat)
  let units := if bits >>> 63 = 1 then -units else units
  .real (units / (1 <<< 1074 : Nat)) (units % (1 <<< 1074 : Nat)).toNat

/-- How many octets a value of a type takes. -/
def widthOf (type : Nat) : Nat :=
  if 12 ≤ type then (type - 12) / 2 else [0, 1, 2, 3, 4, 6, 8, 8].getD type 0

/-- The value of a type that octets make. -/
def cellOf (image : Image) (type : Nat) (octets : Octets) : Cell :=
  if 12 ≤ type then
    if type % 2 = 0 then .octets octets else .text (image.textOf octets)
  else if type = 0 ∨ 10 ≤ type then .null
  else if type = 7 then realOf octets.toArray
  else if 8 ≤ type then .integer (type - 8 : Nat)
  else .integer (signedAt octets.toArray 0 octets.length)

/-- The types of the first values of a row, and where their list was left. -/
def typesOf (read : Nat → Nat) (stop : Nat) : Nat → Nat → List Nat × Nat
  | 0, position => ([], position)
  | columns + 1, position =>
    if stop ≤ position then ([], position)
    else
      let (type, position) := shortNumber read position
      let (types, position) := typesOf read stop columns position
      (type :: types, position)

/-- The first values of a row: their types, and after the list of those the octets of each. If there
are no more values, then they fill the row. -/
def cellsOf (image : Image) (columns : Nat) (row : Octets) : Except EngineError (List Cell) :=
  let all := row.toArray
  let read (i : Nat) : Nat := numberAt all i 1
  let (stop, position) := shortNumber read 0
  let (types, position) := typesOf read stop columns position
  let used := (types.map widthOf).foldl (· + ·) stop
  if types.isEmpty then .ok []
  else if row.length < used ∨ stop < position ∨ (stop = position ∧ used ≠ row.length) then
    .error .malformedImage
  else
    .ok (types.foldl (fun (cells, rest) type =>
      let width := widthOf type
      (cells ++ [image.cellOf type (rest.take width)], rest.drop width)) ([], row.drop stop)).1

/-- How deep a tree of pages may be. -/
def maxDepth : Nat := 20

/-- The rows of the relation that begins at a page, so many columns of them. -/
def rows (image : Image) (columns page : Nat) : Except EngineError (List (List Cell)) :=
  below maxDepth page
where
  /-- The rows of a page that has so many pages below each other at most. -/
  below : Nat → Nat → Except EngineError (List (List Cell))
    | 0, _ => .error .malformedImage
    | fuel + 1, page => do
      if page < 1 ∨ image.pages < page then throw .malformedImage
      let kind := image.kind page
      let count := image.entryCount page
      if (image.pageSize - 8) / 6 < count then throw .malformedImage
      let entries := (List.range count).map (image.entryAt page)
      if kind = leafKind then
        entries.mapM fun position => image.payload page position >>= image.cellsOf columns
      else if kind = branchKind then
        let children := entries.map (fun position => image.number page position 4)
          ++ [image.number page (start page + 8) 4]
        if children.any fun child => image.entryCount child = 0 then throw .malformedImage
        return (← children.mapM (below fuel)).flatten
      else throw .malformedImage

/-! ### Room for more -/

/-- The octets of a page that are free between entries, as a chain of pieces in ascending order. -/
def freePieces (image : Image) (page : Nat) : Nat → Nat → Option Nat
  | 0, _ => none
  | fuel + 1, position =>
    if position = 0 then some 0
    else if image.usable < position + 4 then none
    else
      let next := image.number page position 2
      let size := image.number page (position + 2) 2
      if next ≠ 0 ∧ next < position + size + 4 then none
      else if image.usable < position + size then none
      else (image.freePieces page fuel next).map (· + size)

/-- The octets of an entry in its page, at least four. -/
def entrySize (image : Image) (page position : Nat) : Nat :=
  let read (i : Nat) : Nat := image.number page i 1
  if image.kind page = leafKind then
    let (size, next) := shortNumber read position
    let (_, next) := shortNumber read next
    let here := image.localSize size
    max 4 (next - position + here + (if here < size then 4 else 0))
  else
    let (_, next) := shortNumber read (position + 4)
    next - position

/-- Whether so many octets can be added to the first page: they fit before its entries, or else it
can be put in order, for the entries and the free pieces between them make up what lies behind, or
all but half a page of it. -/
def hasRoom (image : Image) (needed : Nat) : Bool :=
  let head := start 1
  let content := image.number 1 (head + 5) 2
  let content := if content = 0 then 65536 else content
  let count := image.entryCount 1
  let first := head + (if image.kind 1 = leafKind then 8 else 12) + 2 * count
  let firstPiece := image.number 1 (head + 1) 2
  match image.freePieces 1 image.pageSize firstPiece with
  | none => false
  | some pieces =>
    let unused := pieces + image.number 1 (head + 7) 1
    let filled := ((List.range count).map (image.entryAt 1)).foldl
      (fun sum position => sum + image.entrySize 1 position) unused
    (firstPiece = 0 || content ≤ firstPiece) && first ≤ unused + content
      && unused + content ≤ image.usable
      && (first + needed ≤ content
        || (content + filled ≤ image.usable
          && image.usable ≤ content + filled + image.usable / 2))

/-- The number of pages that are not in use. -/
def unused (image : Image) : Nat := image.number 1 36 4

/-- Whether the list of pages that are not in use is in order: it begins with a page that names
others. -/
def hasSoundList (image : Image) : Bool :=
  let first := image.number 1 32 4
  image.unused = 0 || (image.unused < image.pages && 2 ≤ first && first ≤ image.pages
    && image.number first 4 4 + 2 ≤ image.usable / 4)

/-- The greatest first page of a relation, which is noted in a file that says of every page where it
is used; else 0. -/
def greatestRoot (image : Image) : Nat := image.number 1 52 4

/-- Whether the second page of such a file says where the third one is used, in one of five ways. -/
def hasSoundMap (image : Image) : Bool :=
  let use := image.number 2 0 1
  image.greatestRoot = 0 || image.pages < 3 || (1 ≤ use && use ≤ 5)

/-- Whether relations can be added whose entries take so many octets: the first page has room, and
what is noted of the other pages is in order. -/
def admitsRelations (image : Image) (needed : Nat) : Bool :=
  image.hasRoom needed && image.hasSoundList && image.hasSoundMap
    && image.greatestRoot ≤ image.pages

/-- Whether the file can be cut after each change, as it is noted for some of those that say where
pages are used. The pages that say so, of which the second page is the first, are not the last
ones. -/
def admitsCuts (image : Image) : Bool :=
  let isCut := image.greatestRoot ≠ 0 && image.number 1 64 4 = 0
  !isCut || (image.unused = 0
    && (image.pages < 2 || (image.pages - 2) % (image.usable / 5 + 1) ≠ 0))

end Image

end Mailroom.Database
