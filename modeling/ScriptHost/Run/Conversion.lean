import ScriptHost.Run.Result

/-!
# Operations on types and conversion
-/

set_option autoImplicit false

namespace ScriptHost

open Act

/-- All that can be asked of a host value. -/
def World.hostReport (w : World) (v : HostValue) : HostReport where
  value := w.hostView v
  isNull := v.isNull
  asBool := v.asBool?
  asInt64 := v.asInt64?
  asUInt64 := v.asUInt64?
  asFloat := v.asFloat?
  asString := v.asString?
  arrayLength := v.arrayLength?
  isObject := v.isObject
  isScript := v.isScript

/-- All that can be asked of a type. -/
def HostType.report (t : HostType) : TypeReport where
  name := t.name
  admitsNull := t.admitsNull
  isInteger := t.isInteger
  isNumeric := t.isNumeric

/-- Runs an operation on types or a conversion. -/
def ConversionAction.run (s : Scope) : ConversionAction → Act Failure Result
  | .toHost e type => do
    let v ← e.eval s
    let t ← type.eval
    let via ← look fun w => s.binding w
    let h ← holding (handles v) (failing (converting (Act.toHost via t v)))
    pure (.host h)
  | .toScript e => do
    let h ← e.eval s
    let via ← look fun w => s.binding w
    let v ← holding (handles h) (Act.toScript via h)
    replyScript v
  | .describe e => do
    let h ← e.eval s
    replyWith (.host h) fun w => .hostValue (w.hostReport h)
  | .equals a b => do
    let x ← a.eval s
    let y ← holding (handles x) (b.eval s)
    pure (.told (.bool (x.equals y)))
  | .describeType t => do
    let t ← t.eval
    pure (.told (.type t.report))
  | .typeEquals a b => do
    let x ← a.eval
    let y ← b.eval
    pure (.told (.bool (x.same y)))

end ScriptHost
