import ScriptHost.World.Entity
import ScriptHost.World.Store

/-!
# The world

The state of a session: one store for each kind of shared thing, the globals, the call stack, the
session's variables and its log. `held` lists what running operations and bodies keep alive beside
the variables. `journal` records, newest first, when calls and coroutines were entered and left,
which code of the host ran or was refused, and which proxies stand for which objects; nothing in a
run depends on it.

`layout` gives the address of each object. Nothing is assumed of it here, so two objects that are
not alive together may share an address.
-/

set_option autoImplicit false

namespace ScriptHost

/-- One thing that happened. -/
inductive Event where
  /-- A call was begun, inside a coroutine or not. -/
  | called (f : FunctionRef) (inCoroutine : Bool)
  /-- A call was over. -/
  | returned (f : FunctionRef)
  /-- A coroutine was entered. -/
  | resumed (c : CoroutineRef)
  /-- A coroutine was left. -/
  | finished (c : CoroutineRef)
  /-- The body of a host function or of a method was started. -/
  | body (via : BindingRef) (name : String) (params : List HostType) (args : List HostValue)
  /-- A getter was started. -/
  | getter (via : BindingRef) (c : ClassRef) (m : Member)
  /-- A setter was started with a value. -/
  | setter (via : BindingRef) (c : ClassRef) (m : Member) (v : HostValue)
  /-- A constructor was started. -/
  | constructor (c : ClassRef)
  /-- Host code was refused because it was asked for inside a coroutine. -/
  | refused (name : String)
  /-- An object went into script as a proxy. -/
  | wrapped (via : BindingRef) (o : ObjectRef) (u : UserdataRef)

/-- The state of a session. -/
structure World where
  tables : Store .table Table
  functions : Store .function Function
  userdata : Store .userdata Userdata
  objects : Store .object Object
  classes : Store .cls HostClass
  coroutines : Store .coroutine Coroutine
  bindings : Store .binding Binding
  /-- The table of globals. -/
  globals : TableRef
  /-- The binding of the bridge itself. -/
  bridge : BindingRef
  /-- The functions being called, innermost first. -/
  frames : List FunctionRef
  /-- How many calls may be nested. -/
  maxDepth : Nat
  /-- The session's variables. -/
  vars : List (String × Stored)
  /-- What running operations and bodies keep alive. -/
  held : List Handle
  /-- What was logged, newest first. -/
  log : List Answer
  /-- What happened, newest first. -/
  journal : List Event
  /-- The address of each object. -/
  layout : Ref .object → Nat

namespace World

/-- A world before any operation. -/
def start (c : Config) (layout : Ref .object → Nat) : World where
  tables := Store.empty.push .empty
  functions := .empty
  userdata := .empty
  objects := .empty
  classes := .empty
  coroutines := .empty
  bindings := Store.empty.push (.ofConfig c)
  globals := ⟨0⟩
  bridge := ⟨0⟩
  frames := []
  maxDepth := c.maxCallDepth
  vars := []
  held := []
  log := []
  journal := []
  layout := layout

/-! ### Reading

Handles are only made by the stores, so these never meet a handle that reads as nothing; the
fallbacks make them total. -/

def table (w : World) (t : TableRef) : Table := (w.tables.get? t).getD .empty

def function (w : World) (f : FunctionRef) : Function :=
  (w.functions.get? f).getD ⟨"", .script, .script []⟩

def userdatum (w : World) (u : UserdataRef) : Userdata :=
  (w.userdata.get? u).getD (.foreign "" none)

def object (w : World) (o : ObjectRef) : Object :=
  (w.objects.get? o.ref).getD ⟨o.cls, .slots [], .free⟩

def cls (w : World) (c : ClassRef) : HostClass := (w.classes.get? c.ref).getD default

def coroutine (w : World) (c : CoroutineRef) : Coroutine :=
  (w.coroutines.get? c).getD ⟨⟨0⟩, .dead⟩

def binding (w : World) (b : BindingRef) : Binding :=
  (w.bindings.get? b).getD ((w.bindings.get? w.bridge).getD (.ofConfig .default))

/-- The variable of a name. -/
def var? (w : World) (name : String) : Option Stored :=
  (w.vars.find? fun p => p.1 == name).map Prod.snd

/-- The text of the active calls, innermost first. -/
def traceback (w : World) : String :=
  String.join <| "stack traceback:" :: w.frames.map fun f =>
    let f := w.function f
    "\n\t" ++ (match f.origin with | .script => "[script]" | .host => "[host]") ++
      ": in function '" ++ f.name ++ "'"

/-- The proxy behind a userdata value. -/
def proxy? (w : World) (u : UserdataRef) : Option Proxy :=
  match w.userdatum u with
  | .proxy p => some p
  | _ => none

end World

end ScriptHost
