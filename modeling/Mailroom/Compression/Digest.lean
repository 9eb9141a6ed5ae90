import Mailroom.Ident
/-!
A digest of octets in sixty-four bits, which frames use to tell that what they hold is intact.
-/

namespace Mailroom.Compression.Digest

/-- The odd constants that words are multiplied by. -/
def prime1 : UInt64 := 0x9E3779B185EBCA87

@[inherit_doc prime1] def prime2 : UInt64 := 0xC2B2AE3D27D4EB4F
@[inherit_doc prime1] def prime3 : UInt64 := 0x165667B19E3779F9
@[inherit_doc prime1] def prime4 : UInt64 := 0x85EBCA77C2B2AE63
@[inherit_doc prime1] def prime5 : UInt64 := 0x27D4EB2F165667C5

/-- Turns a word left, for an amount between 1 and 63. -/
def turn (word amount : UInt64) : UInt64 := word <<< amount ||| word >>> (64 - amount)

/-- The word that octets write, the least significant first. -/
def word (octets : Octets) : UInt64 :=
  octets.foldr (fun octet value => value <<< 8 ||| octet.toUInt64) 0

/-- A lane after one more word. -/
def round (lane input : UInt64) : UInt64 := turn (lane + input * prime2) 31 * prime1

/-- The digest with a lane taken into it. -/
def merge (digest lane : UInt64) : UInt64 := (digest ^^^ round 0 lane) * prime1 + prime4

/-- The four lanes that stripes of thirty-two octets go into. -/
structure Lanes where
  a : UInt64 := prime1 + prime2
  b : UInt64 := prime2
  c : UInt64 := 0
  d : UInt64 := 0 - prime1

/-- The lanes after a stripe. -/
def Lanes.stripe (lanes : Lanes) (octets : Octets) : Lanes :=
  { a := round lanes.a (word (octets.take 8))
    b := round lanes.b (word ((octets.drop 8).take 8))
    c := round lanes.c (word ((octets.drop 16).take 8))
    d := round lanes.d (word ((octets.drop 24).take 8)) }

/-- The lanes after all whole stripes, and the octets that are left. -/
def Lanes.stripes (lanes : Lanes) (octets : Octets) : Lanes × Octets :=
  if 32 ≤ octets.length then
    (lanes.stripe (octets.take 32)).stripes (octets.drop 32)
  else
    (lanes, octets)
termination_by octets.length
decreasing_by simp; omega

/-- The digest of the lanes. -/
def Lanes.merged (lanes : Lanes) : UInt64 :=
  let sum := turn lanes.a 1 + turn lanes.b 7 + turn lanes.c 12 + turn lanes.d 18
  merge (merge (merge (merge sum lanes.a) lanes.b) lanes.c) lanes.d

/-- The digest after octets that fill no stripe: in words, then at most one half of a word, then
one by one. -/
def tail (digest : UInt64) (octets : Octets) : UInt64 :=
  if 8 ≤ octets.length then
    tail (turn (digest ^^^ round 0 (word (octets.take 8))) 27 * prime1 + prime4) (octets.drop 8)
  else if 4 ≤ octets.length then
    tail (turn (digest ^^^ word (octets.take 4) * prime1) 23 * prime2 + prime3) (octets.drop 4)
  else
    octets.foldl (fun digest octet => turn (digest ^^^ octet.toUInt64 * prime5) 11 * prime1) digest
termination_by octets.length
decreasing_by all_goals simp; omega

/-- Spreads the bits of a digest over all of it. -/
def spread (digest : UInt64) : UInt64 :=
  let digest := (digest ^^^ digest >>> 33) * prime2
  let digest := (digest ^^^ digest >>> 29) * prime3
  digest ^^^ digest >>> 32

end Mailroom.Compression.Digest

namespace Mailroom.Compression

/-- The digest of octets. -/
def digest (octets : Octets) : UInt64 :=
  let length := octets.length
  let (lanes, rest) := ({} : Digest.Lanes).stripes octets
  let start := if 32 ≤ length then lanes.merged else Digest.prime5
  Digest.spread (Digest.tail (start + length.toUInt64) rest)

end Mailroom.Compression
