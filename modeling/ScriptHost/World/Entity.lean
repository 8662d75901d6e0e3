import ScriptHost.Answer.Basic
import ScriptHost.Policy.Basic
import ScriptHost.Value.Table

/-!
# What lives in the world

Besides tables and classes: functions, userdata, objects, coroutines and bindings, and what a
session variable can hold. Each says what it keeps alive. An object is kept alive by host-side
holders only: a proxy names its object without holding it, and so does a function read through a
proxy.
-/

set_option autoImplicit false

namespace ScriptHost

/-- A host function with a fixed list of parameters. -/
structure HostFunction where
  name : String
  params : List HostType
  body : Program

/-- What an access addresses: a class with its static members, or an object with its instance
members. -/
inductive Target where
  | type (c : ClassRef)
  | object (o : ObjectRef)
  deriving DecidableEq

namespace Target

def cls : Target → ClassRef
  | .type c => c
  | .object o => o.cls

def receiver? : Target → Option ObjectRef
  | .type _ => none
  | .object o => some o

def isInstance : Target → Bool
  | .type _ => false
  | .object _ => true

/-- The same class or the same object. -/
def same : Target → Target → Bool
  | .type a, .type b => a.same b
  | .object a, .object b => a.same b
  | _, _ => false

/-- Held by whoever works on the target right now: the object is kept alive. -/
instance : Holds Target where
  handles
    | .type c => handles c
    | .object o => handles o

/-- Named by a proxy or a function: the class is kept alive, the object is not. -/
def weakHandles (t : Target) : List Handle := handles t.cls

end Target

/-- The code of a function. -/
inductive Code where
  | script (body : Program)
  | host (via : BindingRef) (f : HostFunction)
  /-- A method together with what it was read from. -/
  | method (via : BindingRef) (target : Target) (m : Method)

/-- A function. -/
structure Function where
  name : String
  origin : Origin
  code : Code

instance : Holds HostFunction := ⟨fun f => handles f.params⟩

instance : Holds Function where
  handles f := match f.code with
    | .script _ => []
    | .host _ h => handles h
    | .method _ t m => t.weakHandles ++ handles m.params

/-- A class or an object as seen by script. Without a target it was disposed. -/
structure Proxy where
  target : Option Target
  via : BindingRef
  typeName : String

/-- A host value inside the interpreter. -/
inductive Userdata where
  /-- Foreign to the bridge. With a tag and a display it can be compared and displayed. -/
  | foreign (typeName : String) (tagged : Option (String × String))
  | proxy (p : Proxy)
  /-- A host failure that travels through script. -/
  | carrier (e : HostFailure)

instance : Holds Userdata where
  handles
    | .foreign _ _ => []
    | .proxy p => (p.target.map Target.weakHandles).getD []
    | .carrier e => handles e

/-- The type name a failure has while it travels. -/
def carrierName : String := "host error"

def Userdata.typeName : Userdata → String
  | .foreign n _ => n
  | .proxy p => p.typeName
  | .carrier _ => carrierName

/-- The outstanding borrows of an object: some readers, or one writer. -/
inductive Borrow where
  | readers (n : Nat)
  | writer
  deriving DecidableEq

namespace Borrow

/-- Nobody borrows. -/
def free : Borrow := .readers 0

/-- One more reader, unless somebody writes. -/
def read? : Borrow → Option Borrow
  | .readers n => some (.readers (n + 1))
  | .writer => none

/-- A writer, unless somebody borrows. -/
def write? : Borrow → Option Borrow
  | .readers 0 => some .writer
  | _ => none

end Borrow

/-- An instance of a class. -/
structure Object where
  cls : ClassRef
  payload : Payload
  borrow : Borrow

instance : Holds Object := ⟨fun o => handles o.payload⟩

/-- A function that runs at most once, on resumption. -/
structure Coroutine where
  function : FunctionRef
  status : CoroutineStatus

instance : Holds Coroutine := ⟨fun c => [c.function.handle]⟩

/-- The proxies of a binding by the address of their object. Entries keep nothing alive. -/
abbrev ProxyCache := List (Nat × UserdataRef)

/-- A policy with the visibility of types and of instances, and the proxies made so far. Without a
visibility for instances no instance member can be reached. -/
structure Binding where
  policy : Policy
  onType : Visibility
  onInstance : Option Visibility
  cache : ProxyCache

namespace Binding

/-- The binding that a configuration describes. -/
def ofConfig (c : Config) : Binding where
  policy := .ofSpec c.policy
  onType := Visibility.ofType.withNonPublic c.includeNonPublic
  onInstance :=
    if c.exposeInstanceMembers then some (Visibility.ofInstance.withNonPublic c.includeNonPublic)
    else none
  cache := []

def visibility (b : Binding) (instances : Bool) : Option Visibility :=
  if instances then b.onInstance else some b.onType

/-- **Resolution**: the visible members a key matches, without those the policy denies. -/
def resolve (b : Binding) (c : HostClass) (k : MemberKey) (instances : Bool) : List Member :=
  match b.visibility instances with
  | none => []
  | some v => (v.resolve c k).filter fun m => b.policy.permits c m

end Binding

/-- What a session variable holds. -/
inductive Stored where
  | script (v : ScriptValue)
  | scripts (vs : List ScriptValue)
  | host (v : HostValue)
  | object (o : ObjectRef)
  | weak (o : ObjectRef)
  | cls (c : ClassRef)
  | coroutine (c : CoroutineRef)
  | binding (b : BindingRef)
  | hostFunction (f : HostFunction)
  | raised (e : ScriptError)
  | failed (e : HostFailure)

instance : Holds Stored where
  handles
    | .script v => handles v
    | .scripts vs => handles vs
    | .host v => handles v
    | .object o => handles o
    | .weak o => handles o.cls
    | .cls c => handles c
    | .coroutine c => [c.handle]
    | .binding _ => []
    | .hostFunction f => handles f
    | .raised e => handles e
    | .failed e => handles e

end ScriptHost
