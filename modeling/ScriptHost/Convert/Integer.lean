import ScriptHost.Error.Basic
import ScriptHost.Value.HostType
import ScriptHost.Value.HostValue

/-!
# From numbers to host integers

A number converts to an integer type exactly when it is an integer within the range of the type.
-/

set_option autoImplicit false

namespace ScriptHost

/-- Integral floats from this magnitude on are reported by their decimal text as floats. -/
def wideIntegerBound : Nat := 1 <<< 100

/-- The host integer of a type; the range has been checked. -/
def IntType.value (t : IntType) (n : Int) : HostValue :=
  if t.signed then .int (Int64.ofInt n) else .uint (UInt64.ofNat n.toNat)

/-- An exact integer as a value of the type. -/
def IntType.fit (t : IntType) (n : Int) : Except ConversionError HostValue :=
  if t.min ≤ n ∧ n ≤ t.max then .ok (t.value n) else .error (.outOfRange (toString n) t.name)

/-- A float as a value of the type. -/
def IntType.fitFloat (t : IntType) (x : Binary64) : Except ConversionError HostValue :=
  match x.toInt? with
  | none => .error (.noIntegerRepresentation x t.name)
  | some n =>
    -- Out of range of every type beyond the bound; only the text of the number differs.
    if n.natAbs < wideIntegerBound then t.fit n
    else .error (.outOfRange (Decimal.positional x) t.name)

end ScriptHost
