import Mailroom.Compression.Early.Literals
import Mailroom.Compression.Sequences
/-!
The sequences of blocks of earlier versions. Their bits are looked at through a register: what the
last sequence lacks is read all the same, and bits may be left over.
-/

namespace Mailroom.Compression.Early

/-- How much a sequence takes, how far back it goes, and how much it copies from there. -/
structure Jump where
  literals : Nat
  offset : Nat
  copied : Nat

/-- A step that looks at bits through a register. -/
abbrev Looking (α : Type) := StateM Register α

namespace Looking

/-- Slides the register back over what was used. -/
def slide : Looking Unit := modify fun register => register.slide.1

/-- Uses bits, and gives the number that they write. -/
def take (count : Nat) : Looking Nat := fun register => (register.look count, register.skip count)

/-- Reads the first state of a table. -/
def start (table : StateTable) : Looking CodingState := do
  let index ← take table.accuracy
  slide
  return table.state index

/-- Reads the state after another one. -/
def next (table : StateTable) (state : CodingState) : Looking CodingState := do
  return table.state (state.base + (← take state.width))

/-- The register at the end of octets. -/
def register? (octets : Octets) : Option Register :=
  (BackwardBits.ofOctets? octets).map fun bits =>
    let place := octets.length - 8
    ⟨bits.octets, place, 8 * place + Register.size - bits.left⟩

/-- The values of so many steps, each of which begins while no more bits were used than there
are. -/
def repeat? {σ α : Type} (step : σ → Looking (σ × α)) : (count : Nat) → σ → Register →
    Option (List α × σ)
  | 0, state, _ => some ([], state)
  | count + 1, state, register =>
    let register := register.slide.1
    if Register.size < register.used then
      none
    else
      let ((state, value), register) := (step state).run register
      (repeat? step count state register).map fun (values, last) => (value :: values, last)

end Looking

/-- The table in which each state stands for the symbol of its number. -/
def evenTable (accuracy : Nat) : StateTable :=
  ⟨accuracy, ((List.range (1 <<< accuracy)).map fun symbol => ⟨symbol, accuracy, 0⟩).toArray⟩

/-- Takes a distribution, which takes four octets or more. -/
def readDistribution (maxAccuracy symbols : Nat) : Intake Distribution := do
  Intake.ensure (4 ≤ (← get).length)
  Distribution.read maxAccuracy symbols

/-! ### The two last versions -/

/-- How far back an offset value goes, and the recent offsets after it. The values below three
stand for recent offsets; for a sequence without literals the first two change places. -/
def resolve (recent : RecentOffsets) (value literals : Nat) : Nat × RecentOffsets :=
  if 3 ≤ value then
    (value - 2, ⟨value - 2, recent.first, recent.second⟩)
  else
    match if literals = 0 ∧ value ≤ 1 then 1 - value else value with
    | 0 => (recent.first, recent)
    | 1 => (recent.second, ⟨recent.second, recent.first, recent.third⟩)
    | _ => (recent.third, ⟨recent.third, recent.first, recent.second⟩)

/-- The states of the three fields, and the recent offsets. -/
structure FieldStates where
  literals : CodingState
  offset : CodingState
  copied : CodingState
  recent : RecentOffsets

/-- The least offset value of a symbol. Before the last version the two greatest symbols have no
value of their own. -/
def offsetBase (version : Version) (symbol : Nat) : Nat :=
  if version ≠ .seven ∧ 27 ≤ symbol then 1 else 1 <<< symbol - 1

/-- Reads a sequence and the states after it. -/
def readJump (version : Version) (tables : SequenceTables) (states : FieldStates) :
    Looking (FieldStates × Jump) := do
  let low ← Looking.take states.offset.symbol
  let copied ← value Field.copied states.copied
  let literals ← value Field.literals states.literals
  if 31 < states.offset.symbol + width Field.copied states.copied +
      width Field.literals states.literals then
    Looking.slide
  let (offset, recent) :=
    resolve states.recent (offsetBase version states.offset.symbol + low) literals
  let literalsState ← Looking.next tables.literals states.literals
  let copiedState ← Looking.next tables.copied states.copied
  let offsetState ← Looking.next tables.offsets states.offset
  return (⟨literalsState, offsetState, copiedState, recent⟩, ⟨literals, offset, copied⟩)
where
  /-- The bits that follow a symbol. -/
  width (field : Field) (state : CodingState) : Nat := field.widths.getD state.symbol 0
  /-- Reads the value that a state stands for. -/
  value (field : Field) (state : CodingState) : Looking Nat := do
    return field.bases.getD state.symbol 0 + (← Looking.take (width field state))

/-- Takes the table of a field: the usual one, one symbol throughout, the one before, or a new
one. -/
def readTable (field : Field) (symbols : Nat) (before : Option StateTable) (mode : Nat) :
    Intake StateTable :=
  match mode with
  | 0 => pure field.usual.table
  | 1 => do
    let symbol ← Intake.number 1
    Intake.ensure (symbol < symbols)
    return .single symbol
  | 2 => Intake.ofOption before
  | _ => Distribution.table <$> readDistribution field.maxAccuracy symbols

/-- Takes the sequences of a block of one of the two last versions, with the tables and the recent
offsets after them. -/
def readJumps (version : Version) (known : Option SequenceTables) (recent : RecentOffsets) :
    Intake (List Jump × Option SequenceTables × RecentOffsets) := do
  let count ← readSequenceCount
  if count = 0 then
    return ([], known, recent)
  Intake.ensure (4 ≤ (← get).length)
  let modes ← Intake.number 1
  let literals ← readTable Field.literals 36 (known.map (·.literals)) (modes / 64)
  let offsets ← readTable Field.offsets 29 (known.map (·.offsets)) (modes / 16 % 4)
  let copied ← readTable Field.copied 53 (known.map (·.copied)) (modes / 4 % 4)
  let tables : SequenceTables := ⟨literals, offsets, copied⟩
  let register ← Intake.ofOption (Looking.register? (← Intake.rest))
  let (states, register) := (do
    let literals ← Looking.start tables.literals
    let offset ← Looking.start tables.offsets
    let copied ← Looking.start tables.copied
    return (⟨literals, offset, copied, recent⟩ : FieldStates) : Looking FieldStates).run register
  let (jumps, states) ← Intake.ofOption
    (Looking.repeat? (readJump version tables) count states register)
  return (jumps, some tables, states.recent)

/-! ### The versions before -/

/-- What the sequences of a block have in common: the octets that more of a long length is taken
from, where these end, and the next one; the states of the fields; the offset of the sequence
before, and that of the one before it. -/
structure DumpStates where
  octets : Array UInt8
  stop : Nat
  next : Nat
  literals : CodingState
  offset : CodingState
  copied : CodingState
  last : Nat
  before : Nat

namespace DumpStates

/-- An octet that more of a length is taken from. -/
def octet (states : DumpStates) (place : Nat) : Nat := (states.octets.getD place 0).toNat

/-- The next octet, if it may be taken. The first versions look at the end before they take it. -/
def more (states : DumpStates) (looksFirst : Bool) : Nat × Nat :=
  if looksFirst ∧ states.stop ≤ states.next then
    (0, states.next)
  else
    (states.octet states.next, states.next + 1)

/-- A length in full octets: three of them, or two or three of which the lowest bit tells. -/
def full (version : Version) (states : DumpStates) (length place : Nat) : Nat × Nat :=
  let low := states.octet place + 256 * states.octet (place + 1)
  let high := 65536 * states.octet (place + 2)
  if version = .four then
    if place + 3 ≤ states.stop then (low + high, place + 3) else (length, place)
  else if states.stop < place + 2 then
    (length, place)
  else if low % 2 = 1 ∧ place + 2 < states.stop then
    ((low + high) / 2, place + 3)
  else
    (low / 2, place + 2)

/-- The length whose symbol is the greatest of its field: an octet is added, unless it is the
greatest too; then full octets follow. -/
def long (version : Version) (states : DumpStates) (symbol : Nat) (looksFirst : Bool) :
    Nat × DumpStates :=
  let (more, next) := states.more looksFirst
  let (length, next) :=
    if more < 255 then (symbol + more, next) else states.full version symbol next
  (length, { states with next := if states.stop ≤ next then states.stop - 1 else next })

/-- Reads the bits of an offset, and the states after those of the literals and the offset. -/
def readOffset (version : Version) (tables : SequenceTables) (states : DumpStates) :
    Looking (Nat × CodingState × CodingState) := do
  let count := states.offset.symbol - 1
  if version = .four then
    let literals ← Looking.next tables.literals states.literals
    let offset ← Looking.next tables.offsets states.offset
    return (← Looking.take count, literals, offset)
  else
    let low ← Looking.take count
    let offset ← Looking.next tables.offsets states.offset
    return (low, ← Looking.next tables.literals states.literals, offset)

/-- Reads a sequence and the states after it. -/
def readJump (version : Version) (tables : SequenceTables) (states : DumpStates) :
    Looking (DumpStates × Jump) := do
  let symbol := states.literals.symbol
  let again := if symbol = 0 then states.before else states.last
  let (literals, states) :=
    if symbol = 63 then states.long version symbol (version = .four) else (symbol, states)
  let code := states.offset.symbol
  let (low, literalsState, offsetState) ← states.readOffset version tables
  let offset := if code = 0 then again else (if code < 27 then 1 <<< (code - 1) else 1) + low
  let before := if code ≠ 0 ∨ literals = 0 then states.last else states.before
  let symbol := states.copied.symbol
  let copiedState ← Looking.next tables.copied states.copied
  let (copied, states) :=
    if symbol = 127 then states.long version symbol true else (symbol, states)
  let after := { states with
    literals := literalsState, offset := offsetState, copied := copiedState,
    last := offset, before }
  return (after, ⟨literals, offset, copied + 4⟩)

end DumpStates

/-- The ways to give the table of a field. -/
inductive TableMode where
  | even
  | single
  | described
  | before

/-- The way that a number stands for. -/
def TableMode.ofNat (version : Version) (mode : Nat) : TableMode :=
  if version = .four then
    [TableMode.described, .even, .single].getD mode .described
  else
    [TableMode.even, .single, .before].getD mode .described

/-- Takes the table of a field with symbols below a power of two. -/
def readDumpTable (version : Version) (bits maxAccuracy : Nat) (mode : Nat) : Intake StateTable :=
  match TableMode.ofNat version mode with
  | .even => pure (evenTable bits)
  | .single => do
    let symbol ← Intake.number 1
    return .single (if bits = 5 then symbol % 32 else symbol)
  | .described => Distribution.table <$> readDistribution maxAccuracy (1 <<< bits)
  | .before => Intake.refuse

/-- Takes the number of sequences of a block of one of the two first versions. -/
def readDumpCount (version : Version) : Intake Nat := do
  if version = .four then
    Intake.number 2
  else
    let first ← Intake.number 1
    if first < 128 then return first else return (first - 128) * 256 + (← Intake.number 1)

/-- The offset that sequences begin with. -/
def Version.firstOffset : Version → Nat
  | .four => 4
  | _ => 1

/-- Takes the sequences of a block of one of the two first versions. -/
def readDumpJumps (version : Version) : Intake (List Jump) := do
  let octets := (← get).toArray
  let count ← readDumpCount version
  if count = 0 ∧ version ≠ .four then
    return []
  let modes ← Intake.number 1
  let length ← if modes / 2 % 2 = 1 then littleEndian <$> List.reverse <$> Intake.take 2
    else (modes % 2 * 256 + ·) <$> Intake.number 1
  let start := octets.size - (← get).length
  let _ ← Intake.take length
  Intake.ensure (3 ≤ (← get).length)
  let literals ← readDumpTable version 6 10 (modes / 64)
  let offsets ← readDumpTable version 5 9 (modes / 16 % 4)
  let copied ← readDumpTable version 7 10 (modes / 4 % 4)
  let tables : SequenceTables := ⟨literals, offsets, copied⟩
  let register ← Intake.ofOption (Looking.register? (← Intake.rest))
  let first := version.firstOffset
  let (states, register) := (do
    let literals ← Looking.start tables.literals
    let offset ← Looking.start tables.offsets
    let copied ← Looking.start tables.copied
    return (⟨octets, start + length, start, literals, offset, copied, first, first⟩ : DumpStates)
    : Looking DumpStates).run register
  let (jumps, _) ← Intake.ofOption
    (Looking.repeat? (DumpStates.readJump version tables) count states register)
  return jumps

/-! ### Writing -/

/-- Writes what sequences say, and the literals that are left. After the literals of a sequence
there have to be eight places more. -/
def applyJumps (jumps : List Jump) (literals : Octets) (window : Window) : Option Window := do
  let (literals, window) ← jumps.foldlM apply (literals, window)
  window.append? literals.toArray
where
  /-- Writes what a sequence says. -/
  apply : Octets × Window → Jump → Option (Octets × Window)
    | (literals, window), jump => do
      guard (jump.literals + 8 ≤ window.free)
      let (taken, literals) ← (Intake.take jump.literals).run literals
      return (literals, ← (← window.append? taken.toArray).copy? jump.offset jump.copied)

end Mailroom.Compression.Early
