import Mailroom.Compression.Register
import Mailroom.Compression.States
/-!
Codes of bit strings of which none begins another. A code is given by a weight for each symbol: a
heavier symbol has a shorter string, and a symbol of weight zero has none.

Symbols are read one by one, or in pairs: then one look may show two symbols, and the last symbol
of a stream may be shown by a look that reaches over its end.
-/

namespace Mailroom.Compression

/-- A code, laid out as the symbol and the length of its string for each number of as many bits
as the longest string has. -/
structure CodeTable where
  depth : Nat
  cells : Array (UInt8 × Nat)
  /-- Whether symbols are read in pairs. -/
  inPairs : Bool := false
  /-- How many bits a look takes in, unless a string is longer. -/
  usualWidth : Nat := 11

/-- What a look at coded bits shows: a symbol, perhaps the one after it, and how many bits they
have together. -/
structure Sight where
  symbol : UInt8
  follower : Option UInt8
  width : Nat

/-- The symbols that are seen. -/
def Sight.symbols (sight : Sight) : Array UInt8 := #[sight.symbol] ++ sight.follower.toArray

namespace CodeTable

/-- The longest string that a code may have. -/
def depthLimit : Nat := 12

/-- How many numbers begin with the string of a symbol of such a weight. -/
def span (weight : Nat) : Nat := if weight = 0 then 0 else 1 <<< (weight - 1)

/-- The code with these weights. The weight of the last symbol is not given: it fills the code.
There are two strings or more of the greatest length, and their number is even. -/
def ofWeights? (weights : List Nat) : Option CodeTable := do
  let total := weights.foldl (fun total weight => total + span weight) 0
  guard (total ≠ 0)
  let depth := total.log2 + 1
  guard (depth ≤ depthLimit)
  let missing := 1 <<< depth - total
  guard (1 <<< missing.log2 = missing)
  let weights := weights ++ [missing.log2 + 1]
  let longest := weights.count 1
  guard (2 ≤ longest ∧ longest % 2 = 0)
  let cells := (List.range' 1 depth).flatMap fun weight =>
    weights.zipIdx.flatMap fun (w, symbol) =>
      if w = weight then List.replicate (span w) (symbol.toUInt8, depth + 1 - w) else []
  return { depth, cells := cells.toArray }

/-- Weights read in turn from two states. Where no bits are left to follow one of them, the
symbol of the other is the last weight. -/
def weights? (table : StateTable) : (room : Nat) → (now other : CodingState) → BackwardBits →
    Option (List Nat)
  | 0, _, _, _ => none
  | room + 1, now, other, bits =>
    match (table.next now).run bits with
    | none => some [now.symbol, other.symbol]
    | some (after, bits) => (weights? table room other after bits).map (now.symbol :: ·)

/-- Takes so many weights, each in half an octet. -/
def readHalves (count : Nat) : Intake (List Nat) := do
  let octets ← Intake.take ((count + 1) / 2)
  return (octets.flatMap fun octet => [octet.toNat / 16, octet.toNat % 16]).take count

/-- The weights that are coded by states, whose distribution has at most such an accuracy. -/
def codedWeights? (maxAccuracy : Nat) (coded : Octets) : Option (List Nat) := do
  let (distribution, coded) ← (Distribution.read maxAccuracy 256).run coded
  let table := distribution.table
  let (now, bits) ← table.start.run (← BackwardBits.ofOctets? coded)
  let (other, bits) ← table.start.run bits
  weights? table 254 now other bits

/-- Takes the weights of a code. One octet says how they are written: in halves of octets, or
coded by states and how long that is. -/
def readWeights : Intake (List Nat) := do
  let form ← Intake.number 1
  if 128 ≤ form then
    readHalves (form - 127)
  else
    Intake.ofOption (codedWeights? 6 (← Intake.take form))

/-- Takes a code. -/
def read : Intake CodeTable := do
  Intake.ofOption (ofWeights? (← readWeights))

/-- How many bits a look takes in. -/
def lookWidth (table : CodeTable) : Nat := max table.usualWidth table.depth

/-- What a look shows. In pairs, the second symbol is shown if its string is within the look. -/
def sight (table : CodeTable) (look : Nat) : Sight :=
  let spare := table.lookWidth - table.depth
  let (symbol, width) := table.cells.getD (look >>> spare) (0, 0)
  let (follower, more) :=
    table.cells.getD (((look <<< width) % 1 <<< table.lookWidth) >>> spare) (0, 0)
  if table.inPairs ∧ width + more ≤ table.lookWidth then
    ⟨symbol, some follower, width + more⟩
  else
    ⟨symbol, none, width⟩

/-- Reads so many symbols one by one. -/
def symbols (table : CodeTable) : (count : Nat) → Array UInt8 → BackwardBits.Reading (Array UInt8)
  | 0, read => pure read
  | count + 1, read => do
    let (symbol, length) := table.cells.getD ((← get).peek table.depth) (0, 0)
    let _ ← BackwardBits.take length
    symbols table count (read.push symbol)

/-- Whether the last symbol may stand where so many bits are left. A look that shows two symbols
may reach over the end. -/
def endsWith (sight : Sight) (left : Nat) : Bool :=
  if sight.follower.isSome then left ≤ sight.width else left = sight.width

/-- Reads so many symbols in pairs. Where no bits are left for the last symbol, it is looked for
where the register began. -/
def pairs? (table : CodeTable) : (count : Nat) → Array UInt8 → BackwardBits → Option (Array UInt8)
  | 0, read, bits => if bits.left = 0 then some read else none
  | 1, read, bits =>
    let look := if bits.left = 0 then
        (Register.mk bits.octets 0 0).look table.lookWidth
      else
        bits.peek table.lookWidth
    let sight := table.sight look
    if endsWith sight bits.left then some (read.push sight.symbol) else none
  | count + 2, read, bits =>
    let sight := table.sight (bits.peek table.lookWidth)
    (bits.take? sight.width).bind fun (_, bits) =>
      match sight.follower with
      | none => pairs? table (count + 1) (read.push sight.symbol) bits
      | some follower => pairs? table count ((read.push sight.symbol).push follower) bits

/-- The symbols that a text of octets codes: so many, and no bit more. -/
def decode? (table : CodeTable) (count : Nat) (octets : Octets) : Option (Array UInt8) :=
  if table.inPairs then
    (BackwardBits.ofOctets? octets).bind (table.pairs? count #[])
  else
    BackwardBits.whole? octets (table.symbols count #[])

end CodeTable

end Mailroom.Compression
