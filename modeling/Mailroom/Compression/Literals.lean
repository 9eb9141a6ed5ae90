import Mailroom.Compression.Lanes
/-!
The literals of a block: the octets that its sequences take from. They are stored as they are, as
one octet that repeats, or in a code, which is new or the one of a block before.
-/

namespace Mailroom.Compression

/-- Literals stored as they are, as one that repeats, or in a code, new or known before. -/
inductive LiteralForm where
  | plain
  | repeated
  | coded
  | codedAsBefore

/-- The form that two bits stand for. -/
def LiteralForm.ofNat : Nat → LiteralForm
  | 0 => plain
  | 1 => repeated
  | 2 => coded
  | _ => codedAsBefore

/-- The most octets that a block holds. -/
def blockLimit : Nat := 128 * 1024

namespace CodeTable

/-- The time that a way of reading a code takes: for its table, and for each 256 symbols. -/
structure Effort where
  table : Nat
  symbols : Nat

/-- The time for so many symbols. -/
def Effort.total (effort : Effort) (count : Nat) : Nat :=
  effort.table + effort.symbols * (count / 256)

/-- The efforts of reading one by one and in pairs, for codes that take so many sixteenths of the
symbols' octets. -/
def efforts : Array (Effort × Effort) := #[
  (⟨0, 0⟩, ⟨1, 1⟩), (⟨0, 0⟩, ⟨1, 1⟩), (⟨150, 216⟩, ⟨381, 119⟩), (⟨170, 205⟩, ⟨514, 112⟩),
  (⟨177, 199⟩, ⟨539, 110⟩), (⟨197, 194⟩, ⟨644, 107⟩), (⟨221, 192⟩, ⟨735, 107⟩),
  (⟨256, 189⟩, ⟨881, 106⟩), (⟨359, 188⟩, ⟨1167, 109⟩), (⟨582, 187⟩, ⟨1570, 114⟩),
  (⟨688, 187⟩, ⟨1712, 122⟩), (⟨825, 186⟩, ⟨1965, 136⟩), (⟨976, 185⟩, ⟨2131, 150⟩),
  (⟨1180, 186⟩, ⟨2070, 175⟩), (⟨1377, 185⟩, ⟨1731, 202⟩), (⟨1412, 185⟩, ⟨1695, 202⟩)]

/-- Whether so many symbols in so many octets are read in pairs, which has to be faster by more
than a thirty-second. -/
def paysInPairs (count octets : Nat) : Bool :=
  let share := if count ≤ octets then 15 else octets * 16 / count
  let (single, paired) := efforts.getD share (⟨0, 0⟩, ⟨1, 1⟩)
  paired.total count + paired.total count / 32 < single.total count

/-- The symbols of four streams after the lengths of the first three, which hold equally many. Side
by side they are read only if each is eight octets long or longer. -/
def decodeFour? (table : CodeTable) (count : Nat) (octets : Octets) : Option (Array UInt8) := do
  let quarter := (count + 3) / 4
  guard (6 ≤ count ∧ 3 * quarter ≤ count ∧ 10 ≤ octets.length)
  let sizes := [0, 2, 4].map fun start => littleEndian ((octets.drop start).take 2)
  let starts := sizes.foldl (fun starts size => starts ++ [starts.getLastD 0 + size]) [6]
  let stops := starts.drop 1 ++ [octets.length]
  let counts := [quarter, quarter, quarter, count - 3 * quarter]
  guard (starts.all (· < octets.length))
  let streams := starts.zip (stops.zip counts)
  let long := streams.all fun (start, stop, _) => start + 8 ≤ stop
  if long ∧ table.depth ≤ 11 ∧ 3 * quarter < count then
    let octets := octets.toArray
    table.decodeLanes? octets
      (streams.map fun (start, stop, count) => Lane.ofOctets octets start stop count)
  else
    let parts ← streams.mapM fun (start, stop, count) =>
      table.decode? count ((octets.take stop).drop start)
    return parts.foldl (· ++ ·) #[]

end CodeTable

/-- Takes the literals of a block that holds at most so many, with the code that is known after
them. Two bits give the form, and two the width of the sizes that follow in the same number. -/
def readLiterals (limit : Nat) (known : Option CodeTable) :
    Intake (Array UInt8 × Option CodeTable) := do
  let first := (← Intake.next).toNat
  let form := LiteralForm.ofNat (first % 4)
  let format := first / 4 % 4
  match form with
  | .plain => do
    let count ← plainCount format
    return ((← Intake.take count).toArray, known)
  | .repeated => do
    let count ← plainCount format
    return (Array.replicate count (← Intake.number 1).toUInt8, known)
  | .coded => do
    let (count, single, coded) ← codedPart format
    Intake.ofOption do
      let (table, streams) ← CodeTable.read.run coded
      let inPairs := !single && CodeTable.paysInPairs count coded.length
      let table := { table with inPairs }
      let literals ← symbols table single count streams
      some (literals, some table)
  | .codedAsBefore => do
    let (count, single, coded) ← codedPart format
    Intake.ofOption do
      let literals ← symbols (← known) single count coded
      some (literals, known)
where
  /-- Takes the number of literals that are not coded. -/
  plainCount (format : Nat) : Intake Nat := do
    let count ← match format with
      | 1 => (· / 16) <$> Intake.number 2
      | 3 => (· / 16) <$> Intake.number 3
      | _ => (· / 8) <$> Intake.number 1
    Intake.ensure (count ≤ limit)
    return count
  /-- Takes coded literals, with their number and whether they are in a single stream. -/
  codedPart (format : Nat) : Intake (Nat × Bool × Octets) := do
    let width := match format with
      | 2 => 14
      | 3 => 18
      | _ => 10
    let sizes ← (· / 16) <$> Intake.number ((4 + 2 * width + 7) / 8)
    let count := sizes % 1 <<< width
    Intake.ensure (count ≤ limit)
    return (count, format = 0, ← Intake.take (sizes >>> width))
  /-- The literals that a code stands for, in one stream or four. -/
  symbols (table : CodeTable) (single : Bool) (count : Nat) (octets : Octets) :
      Option (Array UInt8) :=
    if single then table.decode? count octets else table.decodeFour? count octets

end Mailroom.Compression
