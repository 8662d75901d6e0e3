import ScriptHost.Proxy.Access

/-!
# The guard and the crossing of errors

Host code does not run inside a coroutine: every way from script to host code asks the guard
first.

Errors cross the boundary without gaining a layer. A script error goes into script as it was; any
other host failure travels inside a carrier, which is opened again on the way back.
-/

set_option autoImplicit false

namespace ScriptHost

namespace Act

variable {α : Type}

/-- Refuses host code inside a coroutine. -/
def guard (inCoroutine : Bool) (name : String) : Act HostFailure Unit :=
  if inCoroutine then do
    note (.refused name)
    throw (.reentrancy name)
  else pure ()

/-- A host failure as an error raised into script. -/
def toScriptError (e : HostFailure) : Act ScriptError ScriptError :=
  match e with
  -- As it was raised: a carrier around it would be one layer more.
  | .script x => pure x
  | e => do
    let u ← newUserdata (.carrier e)
    look fun w => ⟨.userdata u, some w.traceback⟩

/-- An error raised in script as the host sees it. -/
def unwrapError (w : World) (e : ScriptError) : HostFailure :=
  let plain := HostFailure.script e
  match e.value with
  | .userdata u => match w.userdatum u with
    | .carrier inner => inner
    | _ => plain
  | _ => plain

/-- Raises the failure of a host-side act into script. -/
def raising (m : Act HostFailure α) : Act ScriptError α := do
  match ← attempt m with
  | .ok a => pure a
  | .error e => do
    let s ← toScriptError e
    throw s

/-- Catches the error of a script-side act for the host. -/
def catching (m : Act ScriptError α) : Act HostFailure α := mapError unwrapError m

/-! ### Indexing -/

/-- The name under which the guard refuses an access to a proxy. -/
def accessName (p : Proxy) (key : ScriptValue) : String :=
  match key with
  | .string s => p.typeName ++ "." ++ s
  | _ => p.typeName

/-- What cannot be indexed raises an error naming its type. -/
def notIndexable (typeName : String) : Act ScriptError α :=
  runtimeError ("attempt to index a " ++ typeName ++ " value")

/-- `target[key]`. -/
def index (inCoroutine : Bool) (target key : ScriptValue) : Act ScriptError ScriptValue := do
  match target with
  | .table t => look fun w => (w.table t).get key
  | .userdata u => do
    match ← look fun w => w.userdatum u with
    -- The guard comes before the target: inside a coroutine it does not matter whether it is gone.
    | .proxy p => raising do
      guard inCoroutine (accessName p key)
      readProxy p key
    | .carrier e => pure (if key = .string "message" then .string e.message else .nil)
    | .foreign n _ => notIndexable n
  | v => notIndexable v.kind.name

/-- `target[key] = value`. -/
def setIndex (inCoroutine : Bool) (target key value : ScriptValue) : Act ScriptError Unit := do
  match target with
  | .table t => do
    let entries ← look fun w => w.table t
    match entries.set key value with
    | .ok entries => setTable t entries
    | .error fault => runtimeError fault.message
  | .userdata u => do
    match ← look fun w => w.userdatum u with
    | .proxy p => raising do
      guard inCoroutine (accessName p key)
      writeProxy p key value
    | .carrier _ => notIndexable carrierName
    | .foreign n _ => notIndexable n
  | v => notIndexable v.kind.name

end Act

end ScriptHost
