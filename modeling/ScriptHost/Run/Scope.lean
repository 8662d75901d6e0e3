import ScriptHost.Run.Guard

/-!
# Scopes and operands

A body runs in a scope: inside a coroutine or not, on the script side with script arguments or on
the host side with host arguments, a binding and perhaps a receiver. Operands are evaluated in the
scope, from left to right; what has been evaluated stays alive while the rest is.
-/

set_option autoImplicit false

namespace ScriptHost

/-- How an operation fails. -/
inductive Failure where
  /-- A script error. -/
  | raised (e : ScriptError)
  /-- A host failure. -/
  | failed (e : HostFailure)

instance : Holds Failure where
  handles
    | .raised e => handles e
    | .failed e => handles e

/-- On which side of the boundary operations run. -/
inductive Side where
  | top
  | script (args : List ScriptValue)
  | host (via : BindingRef) (receiver : Option ObjectRef) (args : List HostValue)

/-- Where operations run. -/
structure Scope where
  inCoroutine : Bool
  side : Side

namespace Scope

/-- The scope of a session's own operations. -/
def top : Scope := ⟨false, .top⟩

/-- The binding of the running host body, elsewhere the bridge's own. -/
def binding (s : Scope) (w : World) : BindingRef :=
  match s.side with
  | .host via _ _ => via
  | _ => w.bridge

def receiver? (s : Scope) : Option ObjectRef :=
  match s.side with
  | .host _ r _ => r
  | _ => none

end Scope

/-- A variable read as a script value: a value, an item of a list, what was raised. -/
def Stored.asScript (position : Nat) : Stored → ScriptValue
  | .script v => v
  | .scripts vs => (vs[position]?).getD .nil
  | .host (.script v) => v
  | .raised e => e.value
  | .failed e => e.raised?.getD .nil
  | _ => .nil

/-- A variable read as a host value: an object or a class as itself, the rest as script values. -/
def Stored.asHost (position : Nat) : Stored → HostValue
  | .host v => v
  | .object o => .object o
  | .cls c => .cls c
  | s => .script (s.asScript position)

/-- A variable read as a list. -/
def Stored.asScripts : Stored → List ScriptValue
  | .scripts vs => vs
  | s => [s.asScript 0]

/-- The first integers from one. -/
def firstIntegers (n : Nat) : List Int64 := (List.range' 1 n).map Int64.ofNat

namespace Act

variable {α : Type}

/-- A host-side act as part of an operation. -/
def failing (m : Act HostFailure α) : Act Failure α := mapError (fun _ e => .failed e) m

/-- A script-side act as part of an operation. -/
def throwing (m : Act ScriptError α) : Act Failure α := mapError (fun _ e => .raised e) m

/-- A conversion as part of a host-side act. -/
def converting (m : Act ConversionError α) : Act HostFailure α :=
  mapError (fun _ e => .conversion e) m

/-- An operation's failure raised into script. -/
def intoScript (m : Act Failure α) : Act ScriptError α := do
  match ← attempt m with
  | .ok a => pure a
  | .error (.raised e) => throw e
  -- A host failure gets its carrier where it leaves the body.
  | .error (.failed e) => raising (throw e)

/-- An operation's failure caught for the host. -/
def intoHost (m : Act Failure α) : Act HostFailure α :=
  mapError (fun w f => match f with | .raised e => unwrapError w e | .failed e => e) m

/-- A variable; what was never assigned cannot be used. -/
def readVar (name : String) : Act Failure Stored := do
  match ← look fun w => w.var? name with
  | some s => pure s
  | none => throw (.failed (.host ("no variable '" ++ name ++ "'")))

/-- A variable that has to hold something particular. -/
def variableAs (what name : String) (f : Stored → Option α) : Act Failure α := do
  match f (← readVar name) with
  | some a => pure a
  | none => throw (.failed (.host ("variable '" ++ name ++ "' holds no " ++ what)))

def classVar (name : String) : Act Failure ClassRef :=
  variableAs "class" name fun | .cls c => some c | _ => none

def objectVar (name : String) : Act Failure ObjectRef :=
  variableAs "object" name fun
    | .object o | .host (.object o) => some o
    | _ => none

def weakVar (name : String) : Act Failure ObjectRef :=
  variableAs "weak handle" name fun | .weak o => some o | _ => none

def coroutineVar (name : String) : Act Failure CoroutineRef :=
  variableAs "coroutine" name fun | .coroutine c => some c | _ => none

def hostFunctionVar (name : String) : Act Failure HostFunction :=
  variableAs "host function" name fun | .hostFunction f => some f | _ => none

/-- The named binding, or the one in force. -/
def bindingVar (s : Scope) : Option String → Act Failure BindingRef
  | some name => variableAs "binding" name fun | .binding b => some b | _ => none
  | none => look fun w => s.binding w

/-- The named object, or the receiver. -/
def objectOrReceiver (s : Scope) : Option String → Act Failure ObjectRef
  | some name => objectVar name
  | none => match s.receiver? with
    | some o => pure o
    | none => throw (.failed (.host "no receiver"))

end Act

end ScriptHost
