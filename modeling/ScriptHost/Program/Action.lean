import ScriptHost.Program.Expr
import ScriptHost.Program.Config
import ScriptHost.Class.Visibility
import ScriptHost.Class.Payload

/-!
# Actions

An action is one operation that has no body of its own, grouped by what it works on. Names of
session variables and slots are strings, operands are expressions.
-/

set_option autoImplicit false

namespace ScriptHost

/-- What a diagnostic dump shows. -/
inductive DumpSubject where
  | var (name : String)
  | host (e : HostExpr)
  | type (t : TypeExpr)
  | context
  | bridge
  | proxy (e : ScriptExpr)
  | config (c : Config)
  | function (e : ScriptExpr)
  | userdata (e : ScriptExpr)
  | value (e : ScriptExpr)

/-- Values and variables. -/
inductive ValueAction where
  | logScript (e : ScriptExpr)
  | logHost (e : HostExpr)
  | bind (e : ScriptExpr)
  | bindHost (e : HostExpr)
  | drop (var : String)
  | arguments
  | state
  | describe (e : ScriptExpr)
  | rawEquals (a b : ScriptExpr)
  | equals (a b : ScriptExpr)
  | display (e : ScriptExpr)
  /-- A host value foreign to the bridge; with a tag it can be compared and displayed. -/
  | userdata (typeName : String) (tagged : Option (String × String))
  | dump (subject : DumpSubject)

/-- Tables. -/
inductive TableAction where
  | get (table key : ScriptExpr)
  | set (table key value : ScriptExpr)
  | describe (table : ScriptExpr)
  | contains (table key : ScriptExpr)

/-- Calls and indexing from script and from the host, coroutines, the guard. -/
inductive CallAction where
  | call (callee : ScriptExpr) (args : ScriptItems)
  | invoke (target key : ScriptExpr) (args : ScriptItems)
  | index (target key : ScriptExpr)
  | setIndex (target key value : ScriptExpr)
  | coroutine (function : ScriptExpr)
  | coroutineStatus (var : String)
  | resume (var : String) (args : ScriptItems)
  | guard (name : String) (inCoroutine : Option Bool)
  | createFunction (var : String)
  | bridgeCall (callee : ScriptExpr) (args : HostItems)
  | bridgeCallGlobal (name : String) (args : HostItems)
  | callFunction (callee : ScriptExpr) (args : HostItems)
  | callGlobal (name : String) (args : HostItems)

/-- Errors. -/
inductive ErrorAction where
  | raise (e : ScriptExpr)
  | raiseBare (e : ScriptExpr)
  | runtimeError (message : String)
  | fail (message : String)
  | rethrow (var : String)
  | translate (var : String)
  | carry (var : String)
  | describe (var : String)

/-- Types and conversion. -/
inductive ConversionAction where
  | toHost (e : ScriptExpr) (type : TypeExpr)
  | toScript (e : HostExpr)
  | describe (e : HostExpr)
  | equals (a b : HostExpr)
  | describeType (t : TypeExpr)
  | typeEquals (a b : TypeExpr)

/-- Classes and their instances. An absent object is the receiver of the running method. -/
inductive ClassAction where
  | id (name : String)
  | membersNamed (cls name : String)
  | register (cls : String) (as : Option String)
  | instantiate (cls : String) (slots : List (String × HostExpr))
  | instantiateAs (cls : String) (payload : PayloadType)
  | construct (cls : String)
  | slots (object : Option String)
  | getSlot (object : Option String) (slot : String)
  | setSlot (object : Option String) (slot : String) (value : HostExpr)
  | borrowAs (object : Option String) (payload : PayloadType) (mutably : Bool)
  | sameObject (a b : String)
  | downgrade (object : Option String)
  | describeWeak (var : String)
  | upgrade (var : String)
  | display (object : Option String)

/-- What a fresh proxy is made for. -/
inductive ProxySubject where
  | cls (var : String)
  | object (var : Option String)

/-- Proxies, bindings and policies. An absent binding is the current one. -/
inductive ProxyAction where
  | wrap (object : Option String)
  | wrapClass (cls : String)
  | create (subject : ProxySubject) (binding : Option String)
  | describe (proxy : ScriptExpr)
  | sameTarget (a b : ScriptExpr)
  | dispose (proxy : ScriptExpr)
  | read (proxy key : ScriptExpr)
  | write (proxy key value : ScriptExpr)
  | binding (config : Config)
  | liveCount (binding : Option String)
  | cached (object : Option String) (binding : Option String)
  | resolveWith (cls : String) (key : ScriptExpr) (visibility : Visibility)
  | resolve (cls : String) (key : ScriptExpr) (onInstance : Bool) (binding : Option String)
  | decide (cls : String) (policy : PolicySpec)
  | sharedPolicy

/-- One operation without a body. -/
inductive Action where
  | value (a : ValueAction)
  | table (a : TableAction)
  | call (a : CallAction)
  | error (a : ErrorAction)
  | conversion (a : ConversionAction)
  | cls (a : ClassAction)
  | proxy (a : ProxyAction)

end ScriptHost
