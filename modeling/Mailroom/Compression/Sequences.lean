import Mailroom.Compression.Literals
import Mailroom.Compression.Window
/-!
Blocks of sequences. A sequence takes so many literals, and then copies so many octets from so
far back in what has been written.
-/

namespace Mailroom.Compression

/-- How much a sequence takes and copies, and its offset, which may stand for a recent one. -/
structure Sequence where
  literals : Nat
  copied : Nat
  offset : Nat

/-- The offsets used last, the latest first. -/
structure RecentOffsets where
  first : Nat := 1
  second : Nat := 4
  third : Nat := 8

/-- How far back an offset value goes, and the recent offsets after it. The values from one to
three stand for recent offsets; for a sequence without literals they begin with the second one,
and the last stands for one less than the first. -/
def RecentOffsets.resolve (recent : RecentOffsets) (value literals : Nat) :
    Nat × RecentOffsets :=
  if 3 < value then
    (value - 3, ⟨value - 3, recent.first, recent.second⟩)
  else
    match if literals = 0 then value + 1 else value with
    | 1 => (recent.first, recent)
    | 2 => (recent.second, ⟨recent.second, recent.first, recent.third⟩)
    | 3 => (recent.third, ⟨recent.third, recent.first, recent.second⟩)
    | _ => (recent.first - 1, ⟨recent.first - 1, recent.first, recent.second⟩)

/-- The symbols of a field of sequences: the bits that follow each symbol, and the least value
that it stands for. The table where none is described is that of a fixed distribution. -/
structure Field where
  /-- The bits that follow each symbol. -/
  widths : List Nat
  /-- The least value of each symbol. -/
  bases : List Nat
  maxAccuracy : Nat
  usual : Distribution

namespace Field

/-- Values that follow each other without a gap: each symbol begins where the one before ends. -/
def consecutive (start : Nat) (widths : List Nat) : List Nat :=
  match widths with
  | [] => []
  | width :: widths => start :: consecutive (start + 1 <<< width) widths

/-- Numbers of literals. -/
def literals : Field :=
  let widths := List.replicate 16 0 ++
    [1, 1, 1, 1, 2, 2, 3, 3, 4, 6, 7, 8, 9, 10, 11, 12, 13, 14, 15, 16]
  { widths, bases := consecutive 0 widths, maxAccuracy := 9
    usual := ⟨6, [4, 3] ++ List.replicate 11 2 ++ [1, 1, 1] ++ List.replicate 9 2 ++ [3, 2] ++
      List.replicate 5 1 ++ List.replicate 4 (-1)⟩ }

/-- Numbers of octets copied, of which there are three or more. -/
def copied : Field :=
  let widths := List.replicate 32 0 ++
    [1, 1, 1, 1, 2, 2, 3, 3, 4, 4, 5, 7, 8, 9, 10, 11, 12, 13, 14, 15, 16]
  { widths, bases := consecutive 3 widths, maxAccuracy := 9
    usual := ⟨6, [1, 4, 3] ++ List.replicate 6 2 ++ List.replicate 37 1 ++
      List.replicate 7 (-1)⟩ }

/-- Offsets. The bits that follow a symbol are as many as its number. -/
def offsets : Field :=
  { widths := List.range 32, bases := (List.range 32).map (1 <<< ·), maxAccuracy := 8
    usual := ⟨5, List.replicate 6 1 ++ [2, 2, 2] ++ List.replicate 15 1 ++
      List.replicate 5 (-1)⟩ }

/-- Takes the table of a field: the usual one, one symbol throughout, a new one, or the one
before. -/
def readTable (field : Field) (before : Option StateTable) (mode : Nat) : Intake StateTable :=
  match mode with
  | 0 => pure field.usual.table
  | 1 => do
    let symbol ← Intake.number 1
    Intake.ensure (symbol < field.widths.length)
    return .single symbol
  | 2 => Distribution.table <$> Distribution.read field.maxAccuracy field.widths.length
  | _ => Intake.ofOption before

/-- Reads the value that a state stands for. -/
def value (field : Field) (state : CodingState) : BackwardBits.Reading Nat := do
  let low ← BackwardBits.take (field.widths.getD state.symbol 0)
  return field.bases.getD state.symbol 0 + low

end Field

/-- The tables of the three fields. -/
structure SequenceTables where
  literals : StateTable
  offsets : StateTable
  copied : StateTable

namespace SequenceTables

/-- Reads so many sequences, one or more, from the states of their fields. -/
def sequences (tables : SequenceTables) : (count : Nat) → (literals offset copied : CodingState) →
    BackwardBits.Reading (List Sequence)
  | 0, _, _, _ => pure []
  | count + 1, literals, offset, copied => do
    let offsetValue ← Field.offsets.value offset
    let copiedValue ← Field.copied.value copied
    let literalsValue ← Field.literals.value literals
    let sequence := ⟨literalsValue, copiedValue, offsetValue⟩
    if count = 0 then
      return [sequence]
    let literals ← tables.literals.next literals
    let copied ← tables.copied.next copied
    let offset ← tables.offsets.next offset
    return sequence :: (← sequences tables count literals offset copied)

/-- The sequences that a text of octets codes: so many, and no bit more. -/
def decode? (tables : SequenceTables) (count : Nat) (octets : Octets) : Option (List Sequence) :=
  BackwardBits.whole? octets do
    let literals ← tables.literals.start
    let offset ← tables.offsets.start
    let copied ← tables.copied.start
    tables.sequences count literals offset copied

end SequenceTables

/-- What the blocks of a frame have in common: what was written, and the tables and offsets that
a later block may use again. -/
structure FrameState where
  window : Window
  code : Option CodeTable := none
  tables : Option SequenceTables := none
  recent : RecentOffsets := {}

/-- Takes the number of sequences: in one octet, two or three. -/
def readSequenceCount : Intake Nat := do
  let first ← Intake.number 1
  if first < 128 then
    return first
  else if first < 255 then
    return (first - 128) * 256 + (← Intake.number 1)
  else
    return (← Intake.number 2) + 0x7F00

/-- Takes the sequences of a block, with the tables that are known after them. -/
def readSequences (known : Option SequenceTables) :
    Intake (List Sequence × Option SequenceTables) := do
  let count ← readSequenceCount
  if count = 0 then
    Intake.ensure (← Intake.atEnd)
    return ([], known)
  let modes ← Intake.number 1
  Intake.ensure (modes % 4 = 0)
  let literals ← Field.literals.readTable (known.map (·.literals)) (modes / 64)
  let offsets ← Field.offsets.readTable (known.map (·.offsets)) (modes / 16 % 4)
  let copied ← Field.copied.readTable (known.map (·.copied)) (modes / 4 % 4)
  let tables := ⟨literals, offsets, copied⟩
  return (← Intake.ofOption (tables.decode? count (← Intake.rest)), some tables)

/-- Writes what a sequence says, and leaves the literals after it. -/
def Sequence.apply (sequence : Sequence) (literals : Octets) (window : Window)
    (recent : RecentOffsets) : Option (Octets × Window × RecentOffsets) := do
  let (taken, literals) ← (Intake.take sequence.literals).run literals
  let (offset, recent) := recent.resolve sequence.offset sequence.literals
  let window ← (← window.append? taken.toArray).copy? offset sequence.copied
  return (literals, window, recent)

/-- Writes what sequences say, and the literals that are left. -/
def applyAll (sequences : List Sequence) (literals : Octets) (state : FrameState) :
    Option FrameState := do
  let (literals, window, recent) ← sequences.foldlM
    (fun (literals, window, recent) sequence => sequence.apply literals window recent)
    (literals, state.window, state.recent)
  return { state with window := ← window.append? literals.toArray, recent }

end Mailroom.Compression
