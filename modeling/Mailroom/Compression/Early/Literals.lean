import Mailroom.Compression.Early.Version
/-!
The literals of blocks of earlier versions.
-/

namespace Mailroom.Compression.Early

/-- The efforts of reading one by one and in pairs, for codes that take so many sixteenths of the
symbols' octets. -/
def efforts : Array (CodeTable.Effort × CodeTable.Effort) := #[
  (⟨0, 0⟩, ⟨1, 1⟩), (⟨0, 0⟩, ⟨1, 1⟩), (⟨38, 130⟩, ⟨1313, 74⟩), (⟨448, 128⟩, ⟨1353, 74⟩),
  (⟨556, 128⟩, ⟨1353, 74⟩), (⟨714, 128⟩, ⟨1418, 74⟩), (⟨883, 128⟩, ⟨1437, 74⟩),
  (⟨897, 128⟩, ⟨1515, 75⟩), (⟨926, 128⟩, ⟨1613, 75⟩), (⟨947, 128⟩, ⟨1729, 77⟩),
  (⟨1107, 128⟩, ⟨2083, 81⟩), (⟨1177, 128⟩, ⟨2379, 87⟩), (⟨1242, 128⟩, ⟨2415, 93⟩),
  (⟨1349, 128⟩, ⟨2644, 106⟩), (⟨1455, 128⟩, ⟨2422, 124⟩), (⟨722, 128⟩, ⟨1891, 145⟩)]

/-- Whether so many symbols in so many octets are read in pairs, which has to be faster by more
than a part of the time: an eighth, and a sixteenth in the versions before the last. -/
def paysInPairs (version : Version) (count octets : Nat) : Bool :=
  let (single, paired) := efforts.getD (octets * 16 / count) (⟨0, 0⟩, ⟨1, 1⟩)
  let part := if version = .seven then 8 else 16
  paired.total count + paired.total count / part < single.total count

/-- Weights read in turn from two states until both are the first one and no bits are left. -/
def weightsToRest? (table : StateTable) : (room : Nat) → (now other : Nat) → BackwardBits →
    Option (List Nat)
  | 0, now, other, bits => if bits.left = 0 ∧ now = 0 ∧ other = 0 then some [] else none
  | room + 1, now, other, bits =>
    if bits.left = 0 ∧ now = 0 then
      if other = 0 then some [] else none
    else
      let state := table.state now
      (bits.take? state.width).bind fun (low, bits) =>
        (weightsToRest? table room other (state.base + low) bits).map (state.symbol :: ·)

/-- The numbers of weights that are all one, for forms that say nothing else. -/
def evenWeights : List Nat := [1, 2, 3, 4, 7, 8, 15, 16, 31, 32, 63, 64, 127, 128]

/-- The weights that are coded by states, whose distribution takes four octets or more. -/
def codedWeights? (version : Version) (coded : Octets) : Option (List Nat) := do
  guard (4 ≤ coded.length)
  if version = .four ∨ version = .five then
    let (distribution, coded) ← (Distribution.read 12 256).run coded
    let table := distribution.table
    let bits ← BackwardBits.ofOctets? coded
    let (now, bits) ← bits.take? table.accuracy
    let (other, bits) ← bits.take? table.accuracy
    weightsToRest? table 255 now other bits
  else
    CodeTable.codedWeights? 12 coded

/-- Takes a code. -/
def readCode (version : Version) : Intake CodeTable := do
  let form ← Intake.number 1
  let weights ←
    if 242 ≤ form then
      pure (List.replicate (evenWeights.getD (form - 242) 0) 1)
    else if 128 ≤ form then
      CodeTable.readHalves (form - 127)
    else do
      Intake.ofOption (codedWeights? version (← Intake.take form))
  Intake.ofOption (CodeTable.ofWeights? weights)

/-- The literals that a new code stands for, in one stream or in four, with the code. -/
def decode? (version : Version) (single : Bool) (count : Nat) (coded : Octets) :
    Option (Array UInt8 × CodeTable) := do
  let (table, streams) ← (readCode version).run coded
  let inPairs := !single && paysInPairs version count coded.length
  let table := { table with inPairs, usualWidth := 12 }
  let literals ← if single then table.decode? count streams else fourParts? table count streams
  return (literals, table)
where
  /-- The symbols of four streams, each on its own. -/
  fourParts? (table : CodeTable) (count : Nat) (octets : Octets) : Option (Array UInt8) := do
    let quarter := (count + 3) / 4
    guard (3 * quarter ≤ count ∧ 10 ≤ octets.length)
    let (sizes, streams) ← (do return (← Intake.number 2, ← Intake.number 2, ← Intake.number 2)
      : Intake (Nat × Nat × Nat)).run octets
    let (first, streams) ← (Intake.take sizes.1).run streams
    let (second, streams) ← (Intake.take sizes.2.1).run streams
    let (third, last) ← (Intake.take sizes.2.2).run streams
    let parts ← [first, second, third].mapM (table.decode? quarter)
    return parts.foldl (· ++ ·) #[] ++ (← table.decode? (count - 3 * quarter) last)

/-- The literals in four streams, or unless the version is the last one as they are or one octet
repeated, which their length tells. -/
def decodeFour? (version : Version) (count : Nat) (coded : Octets) :
    Option (Array UInt8 × Option CodeTable) := do
  guard (0 < count)
  if version ≠ .seven ∧ coded.length = count then
    return (coded.toArray, none)
  else if version ≠ .seven ∧ coded.length = 1 then
    return (Array.replicate count (coded.headD 0), none)
  else
    guard (1 < coded.length ∧ coded.length < count)
    let (literals, table) ← decode? version false count coded
    return (literals, some table)

/-- Takes the literals of a block of the version before the others, whose sizes begin with the
lowest bits. -/
def readLiteralsFour : Intake (Array UInt8) := do
  let octets ← get
  Intake.ensure (11 ≤ octets.length)
  match (octets.headD 0).toNat % 4 with
  | 0 => do
    let sizes ← Intake.number 5
    let count := sizes % 1 <<< 21 / 4
    Intake.ensure (count ≤ blockLimit)
    let coded ← Intake.take (sizes >>> 21)
    Prod.fst <$> Intake.ofOption (decodeFour? .four count coded)
  | 1 => do
    let count := (← Intake.number 3) / 4
    if count + 11 ≤ octets.length then
      List.toArray <$> Intake.take count
    else
      Intake.ensure (count ≤ blockLimit)
      let _ ← Intake.take count
      return (octets.take count).toArray
  | 2 => do
    let count := (← Intake.number 3) / 4
    Intake.ensure (count ≤ blockLimit)
    return Array.replicate count (← Intake.number 1).toUInt8
  | _ => Intake.refuse

/-- Takes the literals of a block, whose sizes begin with the highest bits, with the code that is
known after them. -/
def readLiteralsFrom (version : Version) (known : Option CodeTable) :
    Intake (Array UInt8 × Option CodeTable) := do
  let octets ← get
  Intake.ensure (3 ≤ octets.length)
  let first := (octets.headD 0).toNat
  let format := first / 16 % 4
  match first / 64 with
  | 0 => do
    Intake.ensure (5 ≤ octets.length)
    let (count, coded) ← codedPart format
    Intake.ensure (count ≤ blockLimit)
    if format = 1 then
      let (literals, table) ← Intake.ofOption (decode? version true count coded)
      return (literals, some table)
    else
      let (literals, table) ← Intake.ofOption (decodeFour? version count coded)
      return (literals, table.or known)
  | 1 => do
    Intake.ensure (format = 1 ∧ version = .seven)
    let (count, coded) ← codedPart format
    let table ← Intake.ofOption (known.filter (·.inPairs))
    return (← Intake.ofOption (table.decode? count coded), known)
  | 2 => do
    return ((← Intake.take (← plainCount format)).toArray, known)
  | _ => do
    let count ← plainCount format
    Intake.ensure (count ≤ blockLimit)
    return (Array.replicate count (← Intake.number 1).toUInt8, known)
where
  /-- Takes coded literals, with their number. -/
  codedPart (format : Nat) : Intake (Nat × Octets) := do
    let width := [10, 10, 14, 18].getD format 0
    let field := littleEndian (← Intake.take ((4 + 2 * width + 7) / 8)).reverse
    return ((field >>> width) % 1 <<< width, ← Intake.take (field % 1 <<< width))
  /-- Takes the number of literals that are not coded. -/
  plainCount (format : Nat) : Intake Nat := do
    let field := littleEndian (← Intake.take ([1, 1, 2, 3].getD format 0)).reverse
    return field % 1 <<< [5, 5, 12, 20].getD format 0

/-- Takes the literals of a block, with the code that is known after them. -/
def readLiterals (version : Version) (known : Option CodeTable) :
    Intake (Array UInt8 × Option CodeTable) :=
  match version with
  | .four => (·, known) <$> readLiteralsFour
  | version => readLiteralsFrom version known

end Mailroom.Compression.Early
