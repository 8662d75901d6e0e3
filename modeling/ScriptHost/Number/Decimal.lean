import ScriptHost.Number.Binary64

/-!
# Shortest decimal text of a float

A float is written with the fewest digits that read back as the same float, and of those with the
digits nearest to its value. All reals between the midpoints to the two neighbouring floats read
back as the float; the midpoints themselves do when the significand is even.

`Decimal.shortest` walks the grids `k * 10 ^ j` from coarse to fine. If a grid has a point between
the midpoints, then one of the two grid points next to the value is such a point, so it is enough
to test these two. The first grid with a hit has the fewest digits.

Texts come in three styles: `positional` never uses an exponent, `withPoint` shows at least one
decimal place, and `compact` turns to an exponent for very large and very small values.
-/

set_option autoImplicit false

namespace ScriptHost

/-- The decimal number `digits * 10 ^ exponent`. -/
structure Decimal where
  digits : Nat
  exponent : Int
  deriving DecidableEq, Inhabited

namespace Decimal

/-- A float's value and the distances to the midpoints around it, in quarters of `2 ^ (-1074)`. -/
structure Window where
  value : Nat
  below : Nat
  above : Nat
  closed : Bool

/-- The window of a float's magnitude. Below a power of two the floats are twice as dense. -/
def Window.ofFloat (x : Binary64) : Window where
  value := 4 * x.magnitude
  below := if x.fraction = 0 ∧ 1 < x.exponent then x.lastPlace else 2 * x.lastPlace
  above := 2 * x.lastPlace
  closed := x.significand % 2 == 0

/-- Whether the point `p`, in units of `1 / s` quarters, lies between the midpoints. -/
def Window.holds (w : Window) (s p : Nat) : Bool :=
  if w.closed then decide ((w.value - w.below) * s ≤ p ∧ p ≤ (w.value + w.above) * s)
  else decide ((w.value - w.below) * s < p ∧ p < (w.value + w.above) * s)

/-- The number of quarters of `2 ^ (-1074)` in one. -/
def quarters : Nat := 4 * Binary64.unit

/-- The point of the grid `10 ^ j` that reads back, the nearer one if both neighbours do. -/
def onGrid (w : Window) (j : Int) : Option Nat :=
  let step := if 0 ≤ j then quarters * Nat.pow 10 j.toNat else quarters
  let s := if 0 ≤ j then 1 else Nat.pow 10 (-j).toNat
  -- The grid points below and above the value, at the scale where both are integers.
  let k := w.value * s / step
  let low := k * step
  let high := (k + 1) * step
  match decide (0 < k) && w.holds s low, w.holds s high with
  | true, true => if w.value * s - low < high - w.value * s then some k else some (k + 1)
  | true, false => some k
  | false, true => some (k + 1)
  | false, false => none

/-- The first hit when the grids are tried downwards from `10 ^ j`, at most `n` of them. -/
def search (w : Window) : Nat → Int → Option Decimal
  | 0, _ => none
  | n + 1, j =>
    match onGrid w j with
    | some k => some ⟨k, j⟩
    | none => search w n (j - 1)

/-- An exponent whose grid is coarser than the value. -/
def coarsest (w : Window) : Int :=
  if quarters ≤ w.value then (((w.value / quarters).log2 / 3 + 1 : Nat) : Int) else 0

/-- **The shortest decimal** that reads back as the float's magnitude. The grid `10 ^ (-1074)` holds
every float exactly, so the search ends there at the latest. -/
def shortest (x : Binary64) : Decimal :=
  if x.magnitude = 0 then ⟨0, 0⟩
  else
    let w := Window.ofFloat x
    let top := coarsest w
    (search w (top + 1075).toNat top).getD ⟨0, 0⟩

/-! ### Texts -/

/-- Zeros in front, up to the given width. -/
def padLeft (width : Nat) (s : String) : String :=
  String.ofList (List.replicate (width - s.length) '0') ++ s

/-- The digits with a point where it belongs, and none when the number is integral. -/
def toPositional (d : Decimal) : String :=
  if 0 ≤ d.exponent then toString (d.digits * Nat.pow 10 d.exponent.toNat)
  else
    let places := (-d.exponent).toNat
    let one := Nat.pow 10 places
    toString (d.digits / one) ++ "." ++ padLeft places (toString (d.digits % one))

/-- One digit before the point and a power of ten after the letter `e`. -/
def toExponential (d : Decimal) : String :=
  let text := toString d.digits
  let power := d.exponent + (text.length - 1 : Nat)
  let tail := (text.drop 1).toString
  (text.take 1).toString ++ (if tail.isEmpty then "" else "." ++ tail) ++ "e" ++ toString power

/-- The text of a float: sign, the words `NaN` and `inf`, or the given text of its magnitude. -/
def signed (x : Binary64) (body : Decimal → String) : String :=
  if x.isNaN then "NaN"
  else (if x.negative then "-" else "") ++ (if x.isInfinite then "inf" else body (shortest x))

/-- The text without an exponent, whatever the size: `1e21` is written with all its zeros. -/
def positional (x : Binary64) : String := signed x toPositional

/-- As `positional`, with `.0` after an integral value. -/
def withPoint (x : Binary64) : String :=
  signed x fun d => if 0 ≤ d.exponent then toPositional d ++ ".0" else toPositional d

/-- As `withPoint` from `1e-4` up to `1e16`, with an exponent outside. -/
def compact (x : Binary64) : String :=
  let plain := x.magnitude = 0 ∨
    (Binary64.unit ≤ x.magnitude * 10000 ∧ x.magnitude < 10000000000000000 * Binary64.unit)
  if plain ∨ !x.isFinite then withPoint x else signed x toExponential

end Decimal

end ScriptHost
