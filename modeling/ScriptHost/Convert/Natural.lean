import ScriptHost.World.Liveness

/-!
# Natural types

The host type a script value converts to without loss, as diagnostics name it, and the host value it
becomes where whatever comes is accepted. A proxy stands for what it reaches.
-/

set_option autoImplicit false

namespace ScriptHost

/-- Integral floats below this magnitude are called integers. -/
def naturalIntegerBound : Nat := 9000000000000000

namespace World

/-- The name of the natural type. -/
def naturalType (w : World) : ScriptValue → String
  | .nil => "null"
  | .boolean _ => "bool"
  | .integer _ => "i64"
  | .number x => if x.isIntegral && x.absBelow naturalIntegerBound then "i64" else "f64"
  | .string _ => "string"
  | .table _ => "table"
  | .function _ => "function"
  | .userdata u => match w.proxyTarget? u with
    | some (.object o) => o.cls.name
    | some (.type c) => "type " ++ c.name
    | none => "userdata"

/-- The natural host value. -/
def naturalValue (w : World) : ScriptValue → HostValue
  | .nil => .null
  | .boolean b => .bool b
  | .integer i => .int i
  | .number x => .float x
  | .string s => .string s
  | .userdata u => match w.proxyTarget? u with
    | some (.object o) => .object o
    | some (.type c) => .cls c
    | none => .script (.userdata u)
  | v => .script v

end World

end ScriptHost
