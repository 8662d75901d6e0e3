/-!
# A 64-bit hash of bytes

The hash reads thirty-two bytes at a time into four lanes, merges the lanes, takes the rest in steps
of eight, four and one byte, and mixes the result. All arithmetic wraps at sixty-four bits.
-/

set_option autoImplicit false

namespace ScriptHost.Xxh64

def prime1 : UInt64 := 0x9E3779B185EBCA87
def prime2 : UInt64 := 0xC2B2AE3D27D4EB4F
def prime3 : UInt64 := 0x165667B19E3779F9
def prime4 : UInt64 := 0x85EBCA77C2B2AE63
def prime5 : UInt64 := 0x27D4EB2F165667C5

/-- Bits shifted out at the top come in at the bottom. -/
def rotate (x : UInt64) (n : UInt64) : UInt64 := (x <<< n) ||| (x >>> (64 - n))

/-- Bytes as a number, the first byte least. -/
def littleEndian (bytes : List UInt8) : UInt64 :=
  bytes.foldr (fun b acc => (acc <<< 8) ||| b.toUInt64) 0

/-- One lane takes in eight bytes. -/
def round (lane input : UInt64) : UInt64 := rotate (lane + input * prime2) 31 * prime1

/-- The four lanes. -/
structure Lanes where
  a : UInt64
  b : UInt64
  c : UInt64
  d : UInt64

/-- The lanes before any input. -/
def Lanes.ofSeed (seed : UInt64) : Lanes :=
  ⟨seed + prime1 + prime2, seed + prime2, seed, seed - prime1⟩

/-- The lanes after thirty-two bytes. -/
def Lanes.take (l : Lanes) (bytes : List UInt8) : Lanes where
  a := round l.a (littleEndian (bytes.take 8))
  b := round l.b (littleEndian ((bytes.drop 8).take 8))
  c := round l.c (littleEndian ((bytes.drop 16).take 8))
  d := round l.d (littleEndian ((bytes.drop 24).take 8))

/-- One lane goes into the merged value. -/
def mergeLane (acc lane : UInt64) : UInt64 := (acc ^^^ round 0 lane) * prime1 + prime4

/-- The four lanes merged into one value. -/
def Lanes.merge (l : Lanes) : UInt64 :=
  [l.a, l.b, l.c, l.d].foldl mergeLane
    (rotate l.a 1 + rotate l.b 7 + rotate l.c 12 + rotate l.d 18)

/-- All whole blocks of thirty-two bytes; the lanes and the bytes that are left. -/
def blocks (l : Lanes) (bytes : List UInt8) : Lanes × List UInt8 :=
  if 32 ≤ bytes.length then blocks (l.take bytes) (bytes.drop 32) else (l, bytes)
termination_by bytes.length
decreasing_by simp only [List.length_drop]; omega

/-- The last bytes, eight, four and one at a time. -/
def tail (acc : UInt64) (bytes : List UInt8) : UInt64 :=
  if 8 ≤ bytes.length then
    tail (rotate (acc ^^^ round 0 (littleEndian (bytes.take 8))) 27 * prime1 + prime4)
      (bytes.drop 8)
  else if 4 ≤ bytes.length then
    tail (rotate (acc ^^^ (littleEndian (bytes.take 4) * prime1)) 23 * prime2 + prime3)
      (bytes.drop 4)
  else
    bytes.foldl (fun h b => rotate (h ^^^ (b.toUInt64 * prime5)) 11 * prime1) acc
termination_by bytes.length
decreasing_by all_goals simp only [List.length_drop]; omega

/-- The final mixing: every input bit reaches every output bit. -/
def avalanche (h : UInt64) : UInt64 :=
  let h := (h ^^^ (h >>> 33)) * prime2
  let h := (h ^^^ (h >>> 29)) * prime3
  h ^^^ (h >>> 32)

/-- The hash of a byte list under a seed. -/
def hash (seed : UInt64) (bytes : List UInt8) : UInt64 :=
  let start := if 32 ≤ bytes.length then
      let (lanes, _) := blocks (Lanes.ofSeed seed) bytes
      lanes.merge
    else seed + prime5
  let rest := if 32 ≤ bytes.length then (blocks (Lanes.ofSeed seed) bytes).2 else bytes
  avalanche (tail (start + UInt64.ofNat bytes.length) rest)

end ScriptHost.Xxh64
