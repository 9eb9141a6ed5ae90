import Mailroom.Compression.Bits
/-!
Coding by states. Each state of a decoding table stands for a symbol and says how many bits lead
to the next state. A table is laid out from a distribution, which gives each symbol its share of
the states.
-/

namespace Mailroom.Compression

/-- A state: its symbol, and the next state less the number that further bits write. -/
structure CodingState where
  symbol : Nat
  width : Nat
  base : Nat
deriving Inhabited

/-- A decoding table of two to the power of the accuracy many states. -/
structure StateTable where
  accuracy : Nat
  states : Array CodingState

/-- The shares of the symbols among the states. A share of minus one takes one state, which is
left by reading a whole new one. -/
structure Distribution where
  accuracy : Nat
  shares : List Int

namespace Distribution

/-- A run of symbols without a share: fields of two bits, the last of which is not three. The
room bounds the number of fields. -/
def zeroRun? (octets : Array UInt8) : (room start : Nat) → Option (Nat × Nat)
  | 0, _ => none
  | room + 1, start =>
    let run := bitsAt octets start 2
    if run = 3 then
      (zeroRun? octets room (start + 2)).map fun (more, after) => (3 + more, after)
    else
      some (run, start + 2)

/-- A share in front of others that sum to the rest, and where it ends. The value, one more than
the share, lies between zero and the rest with one added; small values take one bit less. -/
def share (octets : Array UInt8) (start remaining : Nat) : Int × Nat :=
  let width := remaining.log2
  let short := 2 <<< width - 1 - remaining
  let value := bitsAt octets start width
  if value < short then
    ((value : Int) - 1, start + width)
  else
    let value := bitsAt octets start (width + 1)
    let value := if value < 1 <<< width then value else value - short
    ((value : Int) - 1, start + width + 1)

/-- Shares of at most so many symbols whose sum, with one added, is what remains. -/
def shares? (octets : Array UInt8) (room start remaining : Nat) : Option (List Int × Nat) :=
  if remaining ≤ 1 then
    some ([], start)
  else
    match room with
    | 0 => none
    | room + 1 =>
      match share octets start remaining with
      | (0, after) => do
        let (zeros, after) ← zeroRun? octets room after
        let (shares, after) ← shares? octets (room - zeros) after remaining
        if zeros ≤ room then some (0 :: List.replicate zeros 0 ++ shares, after) else none
      | (share, after) => do
        let (shares, after) ← shares? octets room after (remaining - share.natAbs)
        some (share :: shares, after)
termination_by room

/-- Takes the description of a distribution: the accuracy, then the shares. -/
def read (maxAccuracy symbols : Nat) : Intake Distribution := do
  let octets := (← get).toArray
  let accuracy := bitsAt octets 0 4 + 5
  Intake.ensure (accuracy ≤ maxAccuracy)
  let (shares, after) ← Intake.ofOption (shares? octets symbols 4 (1 <<< accuracy + 1))
  let _ ← Intake.take ((after + 7) / 8)
  return ⟨accuracy, shares⟩

/-- The symbols of the states in order. Symbols with a share of minus one have the last states,
the first such symbol the very last. The others are laid out in strides that visit each state
once. -/
def layout (distribution : Distribution) : Array Nat :=
  let size := 1 <<< distribution.accuracy
  let shares := distribution.shares.zipIdx
  let rare := shares.filterMap fun (share, symbol) => if share = -1 then some symbol else none
  let common := shares.flatMap fun (share, symbol) => List.replicate share.toNat symbol
  let stride := size / 2 + size / 8 + 3
  let places := (List.range size).map (· * stride % size) |>.filter (· < size - rare.length)
  let laid := (places.zip common).foldl
    (fun laid (place, symbol) => laid.setIfInBounds place symbol) (Array.replicate size 0)
  rare.zipIdx.foldl (fun laid (symbol, i) => laid.setIfInBounds (size - 1 - i) symbol) laid

/-- The decoding table. The states of a symbol, in order, count on from its share; the bits that
such a number lacks to the number of states are those to read. -/
def table (distribution : Distribution) : StateTable :=
  let accuracy := distribution.accuracy
  let counts := (distribution.shares.map Int.natAbs).toArray
  let step := fun (states, counts) symbol =>
    let count := counts.getD symbol 0
    let width := accuracy - Nat.log2 count
    (Array.push states (CodingState.mk symbol width (count <<< width - 1 <<< accuracy)),
      counts.setIfInBounds symbol (count + 1))
  ⟨accuracy, ((layout distribution).foldl step (#[], counts)).1⟩

end Distribution

namespace StateTable

/-- The table of one state, for a symbol that is repeated throughout. -/
def single (symbol : Nat) : StateTable := ⟨0, #[⟨symbol, 0, 0⟩]⟩

/-- A state of the table. -/
def state (table : StateTable) (index : Nat) : CodingState := table.states.getD index default

/-- Reads the first state. -/
def start (table : StateTable) : BackwardBits.Reading CodingState := do
  return table.state (← BackwardBits.take table.accuracy)

/-- Reads the state after another one. -/
def next (table : StateTable) (state : CodingState) : BackwardBits.Reading CodingState := do
  return table.state (state.base + (← BackwardBits.take state.width))

end StateTable

end Mailroom.Compression
