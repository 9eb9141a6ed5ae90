import Mailroom.Compression.Block
import Mailroom.Compression.Digest
import Mailroom.Compression.Early.Frame
/-!
Compressed frames: recognising whole Zstandard frames and taking out what they hold.

Frames follow each other without anything between them. Some are to be skipped. The others hold
blocks, which are plain, one octet repeated, or compressed. A frame that says that it holds little
is decoded as a whole; any other is decoded gradually, through a window that is kept for the frames
after it and grows where they need it.

Main facts: no frame holds nothing (`unpack?_nil`), and octets that are too few for the mark of a
frame are not whole frames (`unpack?_of_short`).
-/

namespace Mailroom.Compression

/-- The number that a frame begins with. -/
def frameMark : Nat := 0xFD2FB528

/-- Whether a frame that begins with a number is to be skipped. -/
def isSkipMark (mark : Nat) : Bool := mark / 16 = 0x184D2A5

/-- The largest window that a frame may ask for to be decoded gradually. -/
def windowLimit : Nat := 1 <<< 27 + 1

/-- The most that a frame holds that is decoded as a whole. -/
def wholeLimit : Nat := 8192

/-- What a frame says about itself. -/
structure FrameHeader where
  /-- How far back a sequence may reach. -/
  window : Nat
  /-- How much the frame holds, if it says so. -/
  size : Option Nat
  hasDigest : Bool

namespace FrameHeader

/-- The greatest length of a block. -/
def blockLimit (header : FrameHeader) : Nat := min header.window Compression.blockLimit

/-- How a frame is decoded. -/
def manner (header : FrameHeader) : Manner :=
  if header.size.any (· ≤ wholeLimit) then .whole else .gradual

/-- The least window that frames are decoded through. -/
def leastWindow : Nat := 1024

/-- Takes the window of a frame: an eighth of a power of two, eight to fifteen times. -/
def readWindow : Intake Nat := do
  let field ← Intake.number 1
  let base := 1 <<< (10 + field / 8)
  Intake.ensure (field / 8 + 10 ≤ 31)
  return base + base / 8 * (field % 8)

/-- Takes what a frame says about itself. It needs no dictionary. A frame in one segment has no
window of its own. -/
def read : Intake FrameHeader := do
  let descriptor ← Intake.number 1
  Intake.ensure (descriptor / 8 % 2 = 0)
  let isSegment := descriptor / 32 % 2 = 1
  let window ← if isSegment then pure none else some <$> readWindow
  let dictionary ← Intake.number ([0, 1, 2, 4].getD (descriptor % 4) 0)
  Intake.ensure (dictionary = 0)
  let size ← match descriptor / 64 with
    | 0 => if isSegment then some <$> Intake.number 1 else pure none
    | 1 => (fun size => some (size + 256)) <$> Intake.number 2
    | 2 => some <$> Intake.number 4
    | _ => some <$> Intake.number 8
  let header := ⟨window.getD (size.getD 0), size, descriptor / 4 % 2 = 1⟩
  Intake.ensure (header.manner = .whole ∨ header.window ≤ windowLimit)
  return header

end FrameHeader

/-- The room kept for frames that are decoded gradually: for a block on its way in, and for what
was written. Frames of earlier versions have places of their own, as long as the version stays the
same. -/
structure Room where
  block : Nat := 0
  window : Nat := 0
  early : Option (Early.Version × Nat) := none

/-- The places kept for a version. -/
def Room.keptFor (room : Room) (version : Early.Version) : Nat :=
  match room.early with
  | some (last, places) => if last = version then places else 0
  | none => 0

/-- The room for a frame of such a window, block length and size: where there is too little, all
of it is made anew. The window holds two more blocks and some margin, but no more than the
frame. -/
def Room.grown (room : Room) (window block : Nat) (size : Option Nat) : Room :=
  let window := max window FrameHeader.leastWindow
  let most := window + 2 * min window block + 2 * literalsMargin
  let needed := { room with block := max block 4, window := (size.map (min most)).getD most }
  if room.block < needed.block ∨ room.window < needed.window then needed else room

/-- Writing begins at the first place again when a block might not fit any more, unless all of the
frame fits. -/
def FrameState.turned (state : FrameState) (header : FrameHeader) : FrameState :=
  let window := state.window
  if header.size.all (window.room < ·) ∧ window.room < window.fill + header.blockLimit then
    { state with window := window.turn }
  else
    state

/-- Takes the blocks of a frame: what they hold, and whether the last one is empty. The room bounds
their number. -/
def readBlocks (header : FrameHeader) : (room : Nat) → FrameState →
    Intake (Array UInt8 × Bool)
  | 0, _ => Intake.refuse
  | room + 1, state => do
    let (isLast, isEmpty, state) ← readBlock header.manner header.blockLimit state
    if isLast then
      return (state.window.written, isEmpty)
    else
      readBlocks header room (if header.manner = .gradual then state.turned header else state)

/-- Takes a frame after its mark, and leaves the room for other frames. How much the frame says to
hold is checked unless it ends with an empty block. -/
def readFrame (room : Room) : Intake (Octets × Room) := do
  let header ← FrameHeader.read
  let (places, room) := match header.manner with
    | .whole => (wholeLimit, room)
    | .gradual =>
      let room := room.grown header.window header.blockLimit header.size
      (room.window, room)
  let (written, endsEmpty) ← readBlocks header (← get).length { window := { room := places } }
  Intake.ensure (endsEmpty || header.size.all (· = written.size))
  let content := written.toList
  if header.hasDigest then
    Intake.ensure ((← Intake.number 4) = (digest content).toNat % 1 <<< 32)
  return (content, room)

/-- Takes a frame, of this version or an earlier one, or one that is to be skipped, which holds
nothing. -/
def readAny (room : Room) : Intake (Octets × Room) := do
  let mark ← Intake.number 4
  if mark = frameMark then
    readFrame room
  else if let some version := Early.Version.ofMark? mark then
    let (content, places) ← Early.readFrame version (room.keptFor version)
    return (content, { room with early := some (version, places) })
  else
    Intake.ensure (isSkipMark mark)
    let size ← Intake.number 4
    let _ ← Intake.take size
    return ([], room.grown 0 0 (some size))

/-- Takes all frames there are. The first number bounds their number. -/
def readAll : (most : Nat) → Room → Intake Octets
  | 0, _ => return []
  | most + 1, room => do
    if ← Intake.atEnd then
      return []
    let (content, room) ← readAny room
    return content ++ (← readAll most room)

/-- What a sequence of whole frames holds. No frame holds nothing. -/
def unpack? (octets : Octets) : Option Octets := do
  let (content, rest) ← (readAll octets.length {}).run octets
  guard rest.isEmpty
  return content

/-- No frame holds nothing. -/
theorem unpack?_nil : unpack? [] = some [] := rfl

/-- Octets that are too few for the mark of a frame are not whole frames. -/
theorem unpack?_of_short {octets : Octets} (nonempty : octets ≠ []) (short : octets.length < 4) :
    unpack? octets = none := by
  have noMark : (Intake.number 4) octets = none := Intake.number_eq_none short
  have noFrame : readAny {} octets = none := by
    exact congrArg (Option.bind · _) noMark
  match octets with
  | [] => contradiction
  | _ :: _ => exact congrArg (Option.bind · _) (congrArg (Option.bind · _) noFrame)

end Mailroom.Compression
