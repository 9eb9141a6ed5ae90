import Mailroom.Compression.Codes
/-!
Four streams of coded symbols that are read side by side, in rounds of five looks for each. Rounds
are taken as long as all streams have bits and places enough. What is left of each stream is then
read on its own, and may run on into the octets before it.
-/

namespace Mailroom.Compression

/-- A stream among four. Its register begins at a place, and so many bits are not used yet, counted
from the first octet of all streams. -/
structure Lane where
  /-- Where the octets of the stream begin. -/
  start : Nat
  place : Nat
  left : Nat
  /-- How many symbols the stream holds. -/
  count : Nat
  read : Array UInt8 := #[]

namespace Lane

/-- The stream between two places, which is eight octets long or longer. Its bits end before the
highest bit set in the last octet, if there is one. -/
def ofOctets (octets : Array UInt8) (start stop count : Nat) : Lane :=
  let last := (octets.getD (stop - 1) 0).toNat
  let left := if last = 0 then 8 * stop else 8 * (stop - 1) + last.log2
  { start, place := stop - 8, left, count }

/-- The symbols that are still to be read. -/
def missing (lane : Lane) : Nat := lane.count - lane.read.size

/-- Reads what one look shows. -/
def look (table : CodeTable) (octets : Array UInt8) (lane : Lane) : Lane :=
  let width := table.lookWidth
  let sight := table.sight (bitsAt octets (lane.left - width) width)
  { lane with left := lane.left - sight.width, read := lane.read ++ sight.symbols }

/-- Slides the register back over the octets that were used. -/
def settle (lane : Lane) : Lane :=
  { lane with place := lane.place - (8 * lane.place + 64 - lane.left) / 8 }

/-- Five looks. -/
def round (table : CodeTable) (octets : Array UInt8) (lane : Lane) : Lane :=
  (Nat.repeat (look table octets) 5 lane).settle

/-- The register at the place of the stream. -/
def register (octets : Array UInt8) (lane : Lane) : Register :=
  ⟨octets, lane.place, 8 * lane.place + 64 - lane.left⟩

end Lane

namespace CodeTable

/-- Reads what one look at a register shows. -/
def lookAt (table : CodeTable) (state : Register × Array UInt8) : Register × Array UInt8 :=
  let sight := table.sight (state.1.look table.lookWidth)
  (state.1.skip sight.width, state.2 ++ sight.symbols)

/-- Reads symbols up to a number with at most so many looks at a register, sliding it before each
few looks, as long as it slides and more symbols are missing than the looks may show. -/
def looks (table : CodeTable) (few most goal : Nat) : (room : Nat) → Register × Array UInt8 →
    Register × Array UInt8
  | 0, state => state
  | room + 1, (register, read) =>
    let (register, slid) := register.slide
    if slid ∧ read.size + most ≤ goal then
      looks table few most goal room (Nat.repeat table.lookAt few (register, read))
    else
      (register, read)

/-- Reads symbols up to a number from where a register is. -/
def looksOn (table : CodeTable) (most goal : Nat) : (room : Nat) → Register × Array UInt8 →
    Register × Array UInt8
  | 0, state => state
  | room + 1, state =>
    if state.2.size + most ≤ goal then looksOn table most goal room (table.lookAt state) else state

/-- Reads what is left of a stream, so many symbols in all. -/
def finish (table : CodeTable) (goal : Nat) (register : Register) (read : Array UInt8) :
    Array UInt8 :=
  if table.inPairs then
    let state := table.looks 5 10 goal goal (register, read)
    let state := if state.2.size + 2 ≤ goal then table.looks 1 2 goal goal state else state
    let state := table.looksOn 2 goal goal state
    (table.looksOn 1 goal 1 state).2.take goal
  else
    (table.looksOn 1 goal goal (table.looks 4 4 goal goal (register, read))).2

/-- How many rounds the streams have bits and places for. A round uses at most seven octets. -/
def rounds (table : CodeTable) (lanes : List Lane) : Nat :=
  let most := if table.inPairs then 10 else 5
  lanes.foldl (fun rounds lane => min rounds (lane.missing / most))
    ((lanes.head?.map (·.place)).getD 0 / 7)

/-- Whether the places of streams are in order. -/
def inOrder : List Lane → Bool
  | first :: second :: lanes => first.place ≤ second.place && inOrder (second :: lanes)
  | _ => true

/-- Takes rounds until the last stream has read up to a number. -/
def roundsTo (table : CodeTable) (octets : Array UInt8) (goal : Nat) : (room : Nat) → List Lane →
    List Lane
  | 0, lanes => lanes
  | room + 1, lanes =>
    if (lanes.getLast?.map (·.read.size)).getD goal < goal then
      roundsTo table octets goal room (lanes.map (Lane.round table octets))
    else
      lanes

/-- Takes rounds as long as there are enough bits and places for another one. -/
def advance (table : CodeTable) (octets : Array UInt8) : (room : Nat) → List Lane → List Lane
  | 0, lanes => lanes
  | room + 1, lanes =>
    let rounds := table.rounds lanes
    if rounds = 0 ∨ ¬ inOrder lanes then
      lanes
    else
      let goal := (lanes.getLast?.map (·.read.size)).getD 0 + 5 * rounds
      advance table octets room (table.roundsTo octets goal rounds lanes)

/-- The symbols of four streams that begin after three lengths, each eight octets long or longer. -/
def decodeLanes? (table : CodeTable) (octets : Array UInt8) (lanes : List Lane) :
    Option (Array UInt8) :=
  let lanes := table.advance octets ((lanes.head?.map (·.count)).getD 0) lanes
  if lanes.all fun lane => lane.read.size ≤ lane.count ∧ lane.start ≤ lane.place + 8 then
    some (lanes.foldl
      (fun read lane => read ++ table.finish lane.count (lane.register octets) lane.read) #[])
  else
    none

end CodeTable

end Mailroom.Compression
