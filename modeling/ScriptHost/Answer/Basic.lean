import ScriptHost.Answer.View
import ScriptHost.Class.Lookup

/-!
# Answers

What an operation answers: a result of its own shape, or the failure it caught.
-/

set_option autoImplicit false

namespace ScriptHost

/-- Where a coroutine stands. -/
inductive CoroutineStatus where
  | suspended
  | running
  | dead
  deriving DecidableEq

/-- A failure as it is shown. -/
inductive FailureView where
  | raised (value : View) (message : String) (traceback : Option String)
  | failed (error : HostFailure) (message : String) (payload : Option View)

/-- All that can be asked of a script value. -/
structure ValueReport where
  value : View
  kind : ValueKind
  raisedMessage : String
  isNil : Bool
  truthy : Bool
  asBoolean : Option Bool
  asInteger : Option Int64
  asNumber : Option Binary64
  asString : Option String
  isTable : Bool
  isFunction : Bool
  isUserdata : Bool
  natural : String
  lookup : Option String

/-- All that can be asked of a host value. -/
structure HostReport where
  value : HostView
  isNull : Bool
  asBool : Option Bool
  asInt64 : Option Int64
  asUInt64 : Option UInt64
  asFloat : Option Binary64
  asString : Option String
  arrayLength : Option Nat
  isObject : Bool
  isScript : Bool

structure TypeReport where
  name : String
  admitsNull : Bool
  isInteger : Bool
  isNumeric : Bool

structure StateReport where
  inCoroutine : Bool
  depth : Nat
  traceback : String
  maxDepth : Nat

structure TableReport where
  count : Nat
  len : Nat
  sequence : List View
  all : View

structure ProxyReport where
  disposed : Bool
  released : Bool
  value : View
  targetClass : Option String
  hasReceiver : Option Bool

structure WeakReport where
  alive : Bool
  cls : String
  slots : Option SlotsView
  addressKept : Option Bool

/-- What is known of a stored error. -/
inductive ErrorReport where
  | bridge (failed : FailureView) (e : HostFailure)
  | script (display : String) (raised : FailureView) (value : View) (traceback : Option String)

/-- The result of one operation. -/
inductive Answer where
  | null
  | bool (b : Bool)
  | nat (n : Nat)
  | text (s : String)
  /-- Text in which addresses may stand. -/
  | diagnostic (s : String)
  | script (v : View)
  | scripts (vs : List View)
  | host (v : HostView)
  | hosts (vs : List HostView)
  | slots (s : SlotsView)
  | value (r : ValueReport)
  | hostValue (r : HostReport)
  | type (r : TypeReport)
  | state (r : StateReport)
  | written (count len : Nat)
  | table (r : TableReport)
  | coroutine (status : CoroutineStatus) (function : String) (origin : Origin)
  | hostFunction (name : String) (params : List String)
  | classId (id : UInt64)
  | cls (c : HostClass)
  | members (ms : List Member)
  | same (object address cls : Bool)
  | weak (r : WeakReport)
  | proxy (r : ProxyReport)
  | visibility (onType : Nat) (onInstance : Option Nat)
  | decisions (ds : List (String × Bool))
  | failure (f : FailureView)
  | error (r : ErrorReport)
  | caught (f : FailureView)

end ScriptHost
