import ScriptHost.Error.Dump
import ScriptHost.World.Display

/-!
# Diagnostic dumps

What a diagnostic shows of values, classes, bindings and the bridge. Fields that cannot be shown are
left out, with two dots in their place.
-/

set_option autoImplicit false

namespace ScriptHost

open Text (quoted)
open Text.Dump

namespace World

def dumpScript (w : World) : ScriptValue → String
  | .nil => ValueKind.nil.title
  | .boolean b => tuple "Boolean" [bool b]
  | .integer i => tuple "Integer" [toString i.toInt]
  | .number x => tuple "Number" [Decimal.positional x]
  | .string s => tuple "String" [quoted s]
  | .function f => tuple "Function" [quoted (w.function f).name]
  | .table t => tuple "Table" [t.handle.address]
  | .userdata u => tuple "UserData" [(w.userdatum u).typeName]

def dumpObject (_w : World) (o : ObjectRef) : String :=
  tuple "HostObject" [o.cls.name ++ ": " ++ o.ref.handle.address]

def dumpWeak (w : World) (o : ObjectRef) : String :=
  tuple "WeakHostObject"
    [o.cls.name ++ ": " ++ o.ref.handle.address, "alive: " ++ bool (w.alive o.ref.handle)]

mutual

def dumpHost (w : World) : HostValue → String
  | .null => "Null"
  | .bool b => tuple "Bool" [bool b]
  | .int i => tuple "Int" [toString i.toInt]
  | .uint u => tuple "UInt" [toString u.toNat]
  | .float x => tuple "Float" [Decimal.positional x]
  | .string s => tuple "Str" [quoted s]
  | .array items => tuple "Array" [list (dumpHosts w items)]
  | .object o => w.dumpObject o
  | .cls c => tuple "Class" [c.name]
  | .script v => tuple "Script" [w.dumpScript v]

def dumpHosts (w : World) : List HostValue → List String
  | [] => []
  | x :: xs => dumpHost w x :: dumpHosts w xs

end

def dumpOrigin : Origin → String
  | .script => "Script"
  | .host => "Host"

def dumpFunction (w : World) (f : FunctionRef) : String :=
  let f := w.function f
  openRecord "Function" [("name", quoted f.name), ("origin", dumpOrigin f.origin)]

def dumpUserdata (w : World) (u : UserdataRef) : String :=
  tuple "AnyUserData" [(w.userdatum u).typeName ++ ": " ++ u.handle.address]

def dumpStatus : CoroutineStatus → String
  | .suspended => "Suspended"
  | .running => "Running"
  | .dead => "Dead"

def dumpCoroutine (w : World) (c : CoroutineRef) : String :=
  let co := w.coroutine c
  record "Coroutine"
    [("function", quoted (w.function co.function).name), ("status", dumpStatus co.status)]

/-- The flags of a member. -/
def dumpFlags (isStatic isPublic : Bool) : String :=
  let names := (if isStatic then ["STATIC"] else []) ++ (if isPublic then ["PUBLIC"] else [])
  tuple "MemberFlags" [if names.isEmpty then "0x0" else String.intercalate " | " names]

def dumpMember : Member → String
  | .method m => record "Method"
    [("name", quoted m.name), ("params", list (m.params.map HostType.dump)),
      ("flags", dumpFlags m.isStatic m.isPublic)]
  | .property p => record "Property"
    [("name", quoted p.name), ("ty", p.type.dump), ("getter", bool p.getter.isSome),
      ("setter", bool p.setter.isSome), ("indexer_arity", toString p.arity)]
  | .field f => record "Field"
    [("name", quoted f.name), ("ty", f.type.dump), ("mutable", bool f.setter.isSome)]

def dumpClass (c : HostClass) : String :=
  openRecord "ClassInfo"
    [("id", tuple "ClassId" [toString (HostClass.idOf c.name).toNat]), ("name", quoted c.name),
      ("members", list (c.members.map dumpMember))]

def dumpVisibility (v : Visibility) : String := record "Binder" [("flags", v.dump)]

def dumpBinding (b : Binding) : String :=
  openRecord "BindingContext"
    [("type_binder", dumpVisibility b.onType),
      ("instance_binder", option (b.onInstance.map dumpVisibility))]

def dumpLimit (maxDepth : Nat) : String :=
  record "InterpreterConfig" [("max_call_depth", toString maxDepth)]

def dumpContext (w : World) (inCoroutine : Bool) : String :=
  record "CallContext"
    [("state", if inCoroutine then "InCoroutine" else "Normal"),
      ("depth", toString w.frames.length)]

def dumpBridge (w : World) : String :=
  record "Bridge"
    [("interpreter", openRecord "Interpreter"
        [("depth", toString w.frames.length), ("config", dumpLimit w.maxDepth)]),
      ("binding", dumpBinding (w.binding w.bridge))]

def dumpConfig (c : Config) : String :=
  openRecord "BridgeConfig"
    [("expose_instance_members", bool c.exposeInstanceMembers),
      ("include_non_public", bool c.includeNonPublic), ("interpreter", dumpLimit c.maxCallDepth)]

def dumpProxy (w : World) (p : Proxy) : String :=
  record "HostProxy"
    [("type_name", quoted p.typeName), ("disposed", bool p.target.isNone),
      ("released", bool (w.isReleased p))]

def dumpHostFunction (f : HostFunction) : String :=
  openRecord "HostFunction"
    [("name", quoted f.name), ("params", list (f.params.map HostType.dump))]

/-- What a session variable holds. -/
def dumpStored (w : World) : Stored → String
  | .script v => w.dumpScript v
  | .scripts vs => list (vs.map w.dumpScript)
  | .host v => w.dumpHost v
  | .object o => w.dumpObject o
  | .weak o => w.dumpWeak o
  | .cls c => dumpClass (w.cls c)
  | .coroutine c => w.dumpCoroutine c
  | .binding b => dumpBinding (w.binding b)
  | .hostFunction f => dumpHostFunction f
  | .raised e => e.dump w.dumpScript
  | .failed e => e.dump w.dumpScript

end World

end ScriptHost
