/-!
# Sixty-four bit floats, exactly

A script number is a 64-bit word with a sign bit, eleven exponent bits and fifty-two fraction bits.
This module reads the word in exact integer arithmetic; nothing here is rounded except `ofInt`,
whose whole purpose is to round.

The one view of a word is `scaled`, its value as an integer multiple of `2 ^ (-1074)`, the smallest
positive float. Every finite float is such a multiple, so comparison, integrality and conversion to
integers are comparisons, divisibility and division of integers. The two infinities take part in
the order as the values one step outside the finite range; a word that is not a number is excluded
by name wherever it matters.
-/

set_option autoImplicit false

namespace ScriptHost

/-- A float, held as its word. -/
structure Binary64 where
  /-- The word: sign, exponent and fraction from the top bit down. -/
  bits : UInt64
  deriving DecidableEq, Inhabited

namespace Binary64

/-! ### The fields of a word -/

/-- The word as a natural number. -/
def word (x : Binary64) : Nat := x.bits.toNat

/-- The sign bit. It is set for `-0` too. -/
def negative (x : Binary64) : Bool := decide (1 <<< 63 ≤ x.word)

/-- The eleven exponent bits. -/
def exponent (x : Binary64) : Nat := x.word / 1 <<< 52 % 1 <<< 11

/-- The fifty-two fraction bits. -/
def fraction (x : Binary64) : Nat := x.word % 1 <<< 52

/-- All exponent bits are set: an infinity or not a number. -/
def isFinite (x : Binary64) : Bool := x.exponent != 2047

/-- Not a number: all exponent bits set and a fraction. -/
def isNaN (x : Binary64) : Bool := x.exponent == 2047 && x.fraction != 0

/-- One of the two infinities. -/
def isInfinite (x : Binary64) : Bool := x.exponent == 2047 && x.fraction == 0

/-! ### The exact value -/

/-- The significand with its leading bit, which subnormal words lack. -/
def significand (x : Binary64) : Nat :=
  if x.exponent = 0 then x.fraction else 1 <<< 52 + x.fraction

/-- One unit in the last place, in multiples of `2 ^ (-1074)`. -/
def lastPlace (x : Binary64) : Nat := 1 <<< (x.exponent - 1)

/-- The absolute value in multiples of `2 ^ (-1074)`. -/
def magnitude (x : Binary64) : Nat := x.significand * x.lastPlace

/-- **The exact value** in multiples of `2 ^ (-1074)`. Both zeros are `0`; an infinity is one step
outside the finite range. -/
def scaled (x : Binary64) : Int :=
  if x.negative then -(x.magnitude : Int) else x.magnitude

/-- How many multiples of `2 ^ (-1074)` make one. -/
def unit : Nat := 1 <<< 1074

/-! ### Order and equality of values -/

/-- Equality of values: the zeros are equal, and what is not a number equals nothing. -/
def equals (x y : Binary64) : Bool :=
  !x.isNaN && !y.isNaN && x.scaled == y.scaled

/-- The absolute value is below the integer `n`. False of an infinity and of what is no number. -/
def absBelow (x : Binary64) (n : Nat) : Bool :=
  x.isFinite && decide (x.magnitude < n * unit)

/-- Finite without a fractional part. -/
def isIntegral (x : Binary64) : Bool :=
  x.isFinite && x.scaled % (unit : Int) == 0

/-- The integer an integral float is. -/
def toInt? (x : Binary64) : Option Int :=
  if x.isIntegral then some (x.scaled / (unit : Int)) else none

/-- The integer an integral float is, when it fits into sixty-four bits. -/
def toInt64? (x : Binary64) : Option Int64 :=
  match x.toInt? with
  | some n =>
    if -0x8000000000000000 ≤ n ∧ n < 0x8000000000000000 then some (Int64.ofInt n) else none
  | none => none

/-! ### Building words -/

/-- The word from sign and magnitude bits. -/
def ofMagnitudeBits (sign : Bool) (bits : Nat) : Binary64 :=
  ⟨UInt64.ofNat (if sign then 1 <<< 63 + bits else bits)⟩

/-- The quotient `n / 2 ^ s` rounded to the nearest integer, a half going to the even neighbour. -/
def roundShift (n s : Nat) : Nat :=
  let q := n / 1 <<< s
  let r := n % 1 <<< s
  if 2 * r < 1 <<< s then q
  else if 1 <<< s < 2 * r then q + 1
  else if s = 0 then q
  else q + q % 2

/-- The magnitude bits of the float nearest to a natural number. The significand is added to the
exponent bits, so a significand that rounds up to the next power of two carries into them. -/
def magnitudeBitsOfNat (n : Nat) : Nat :=
  if n = 0 then 0
  else
    let e := n.log2
    -- Beyond all floats, exact, and rounded. The leading bit adds one to the exponent.
    if 1024 ≤ e then 2047 <<< 52
    else if e ≤ 52 then (e + 1022) <<< 52 + n <<< (52 - e)
    else (e + 1022) <<< 52 + roundShift n (e - 52)

/-- The float nearest to an integer, a tie going to the even significand. -/
def ofInt (n : Int) : Binary64 :=
  ofMagnitudeBits (decide (n < 0)) (magnitudeBitsOfNat n.natAbs)

/-- The word that stands for "not a number" where the program needs one. -/
def nan : Binary64 := ⟨0x7ff8000000000000⟩

/-- The largest magnitude of a 32-bit float, as an integer: `(2 ^ 24 - 1) * 2 ^ 104`. -/
def maxSingle : Nat := 0xffffff <<< 104

/-- The value fits the range of 32-bit floats; infinities and what is no number do too. -/
def fitsSingle (x : Binary64) : Bool :=
  !x.isFinite || decide (x.magnitude ≤ maxSingle * unit)

example : (ofInt 1).bits = 0x3ff0000000000000 := by decide
example : (ofInt (-3)).bits = 0xc008000000000000 := by decide
example : (ofInt 0x20000000000001).bits = (ofInt 0x20000000000000).bits := by decide
example : (ofInt 0xffffffffffffffff).bits = (ofInt 0x10000000000000000).bits := by decide

end Binary64

end ScriptHost
