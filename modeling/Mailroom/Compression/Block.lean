import Mailroom.Compression.Sequences
/-!
Blocks of a frame. A block is plain, one octet repeated, or compressed.

A frame that is decoded as a whole has all its places at once. One that is decoded gradually writes
block after block into a window, and each of its blocks has a greatest length.
-/

namespace Mailroom.Compression

/-- Whether a frame is decoded as a whole, or block after block. -/
inductive Manner where
  | whole
  | gradual
deriving DecidableEq

/-- The places kept free around literals that are set down among the places of a block. -/
def literalsMargin : Nat := 32

/-- Whether literals are set down among the places after a block, given whether they lie in the
block as they are. Literals that are followed by enough octets are used where they lie. -/
def setsLiteralsDown (limit free literals taken length : Nat) (isPlain : Bool) : Bool :=
  limit + literals + 2 * literalsMargin < free && !(isPlain && taken + literalsMargin ≤ length)

namespace FrameState

/-- Does something while at most so many more places may be written. -/
def within? (state : FrameState) (limit : Nat) (write : FrameState → Option FrameState) :
    Option FrameState :=
  let room := state.window.room
  let bounded := { state.window with room := min room (state.window.fill + limit) }
  (write { state with window := bounded }).map fun after =>
    { after with window := { after.window with room } }

/-- Writes octets, at most so many. -/
def append? (state : FrameState) (limit : Nat) (octets : Array UInt8) : Option FrameState :=
  if octets.size ≤ limit then
    (state.window.append? octets).map fun window => { state with window }
  else
    none

/-- Writes what a compressed block holds. -/
def decompress? (state : FrameState) (manner : Manner) (limit : Nat) (block : Octets) :
    Option FrameState := do
  let free := state.window.free
  let ((literals, code), rest) ← (readLiterals (min limit free) state.code).run block
  let ((sequences, tables), _) ← (readSequences state.tables).run rest
  let isPlain := (block.headD 0).toNat % 4 = 0
  let taken := block.length - rest.length
  let places := match manner with
    | .gradual => limit
    | .whole =>
      if setsLiteralsDown limit free literals.size taken block.length isPlain then
        limit + literalsMargin
      else
        free
  { state with code, tables }.within? places (applyAll sequences literals.toList)

end FrameState

/-- Takes a block of a frame whose blocks have a greatest length: whether it is the last one,
whether it is empty, and the state after it. Decoded gradually, a block of no length is empty
whatever its kind. -/
def readBlock (manner : Manner) (limit : Nat) (state : FrameState) :
    Intake (Bool × Bool × FrameState) := do
  let field ← Intake.number 3
  let kind := field / 2 % 4
  let size := field / 8
  let isEmpty := manner = .gradual && kind ≠ 1 && kind ≠ 3 && size = 0
  let places := match manner with
    | .whole => state.window.free
    | .gradual => limit
  let after ←
    if isEmpty then
      pure state
    else
      match kind with
      | 0 => do
        Intake.ensure (size ≤ places)
        Intake.ofOption (state.append? places (← Intake.take size).toArray)
      | 1 => do
        let octet := (← Intake.number 1).toUInt8
        Intake.ensure (size ≤ places)
        Intake.ofOption (state.append? places (Array.replicate size octet))
      | 2 => do
        Intake.ensure (size ≤ limit)
        Intake.ofOption (state.decompress? manner limit (← Intake.take size))
      | _ => Intake.refuse
  return (field % 2 = 1, isEmpty, after)

end Mailroom.Compression
