import ScriptHost.Run.Call
import ScriptHost.Run.Result

/-!
# Operations that call

The function that is called, or what is indexed or resumed, stays alive until the results have been
looked at. The arguments belong to the call, and a key under which a function is called is let go of
once the function is found.
-/

set_option autoImplicit false

namespace ScriptHost

open Act

/-- The status of a coroutine with its function. -/
def World.coroutineAnswer (w : World) (c : CoroutineRef) : Answer :=
  let co := w.coroutine c
  let f := w.function co.function
  .coroutine co.status f.name f.origin

/-- The script function of a host function. -/
def bindHostFunction (via : BindingRef) (f : HostFunction) : Act Failure FunctionRef :=
  newFunction ⟨f.name, .host, .host via f⟩

/-- Runs an operation that calls, indexes, resumes or asks the guard. -/
def CallAction.run (call : Caller) (s : Scope) : CallAction → Act Failure Result
  | .call callee args => do
    let f ← callee.eval s
    let vs ← holding (handles f) (args.eval s)
    holding (handles f) do
      let rs ← throwing (apply call s.inCoroutine f vs)
      replyScripts rs
  | .invoke target key args => do
    let t ← target.eval s
    let k ← holding (handles t) (key.eval s)
    let vs ← holding (handles t ++ handles k) (args.eval s)
    holding (handles t) do
      let rs ← throwing (Act.invoke call s.inCoroutine t k vs)
      replyScripts rs
  | .index target key => do
    let t ← target.eval s
    let k ← holding (handles t) (key.eval s)
    holding (handles t ++ handles k) do
      let v ← throwing (Act.index s.inCoroutine t k)
      replyScript v
  | .setIndex target key value => do
    let t ← target.eval s
    let k ← holding (handles t) (key.eval s)
    let v ← holding (handles t ++ handles k) (value.eval s)
    holding (handles t ++ handles k ++ handles v) (throwing (Act.setIndex s.inCoroutine t k v))
    pure .nothing
  | .coroutine function => do
    match (← function.eval s).asFunction? with
    | some f => do
      let c ← newCoroutine ⟨f, .suspended⟩
      replyWith (.coroutine c) fun w => w.coroutineAnswer c
    | none => throw (.failed (.host "not a function"))
  | .coroutineStatus name => do
    let c ← coroutineVar name
    reply fun w => w.coroutineAnswer c
  | .resume name args => do
    let c ← coroutineVar name
    let vs ← args.eval s
    holding [c.handle] do
      let rs ← throwing (Act.resume call c vs)
      replyScripts rs
  | .guard name inCoroutine => do
    let inside := inCoroutine.getD s.inCoroutine
    failing (Act.guard inside name)
    pure (.told (.bool inside))
  | .createFunction name => do
    let h ← hostFunctionVar name
    let via ← look fun w => w.bridge
    let f ← bindHostFunction via h
    replyScript (.function f)
  | .bridgeCall callee args => do
    let f ← callee.eval s
    let vs ← holding (handles f) (args.eval s)
    let via ← look fun w => w.bridge
    holding (handles f) do
      let rs ← failing (hostCall call false via f vs)
      replyScripts rs
  | .bridgeCallGlobal name args => do
    let vs ← args.eval s
    let via ← look fun w => w.bridge
    let f ← look fun w => (w.table w.globals).get (.string name)
    let rs ← holding (handles f) (failing (hostCall call false via f vs))
    replyScripts rs
  | .callFunction callee args => do
    let f ← callee.eval s
    let vs ← holding (handles f) (args.eval s)
    let via ← look fun w => s.binding w
    holding (handles f) do
      let rs ← failing (hostCall call s.inCoroutine via f vs)
      replyScripts rs
  | .callGlobal name args => do
    let vs ← args.eval s
    let via ← look fun w => s.binding w
    let f ← look fun w => (w.table w.globals).get (.string name)
    let rs ← holding (handles f) (failing (hostCall call s.inCoroutine via f vs))
    replyScripts rs

/-- Stores a host function's script function in a table under its name. -/
def registerIn (h : HostFunction) (t : TableRef) : Act Failure Unit := do
  let via ← look fun w => w.bridge
  let f ← bindHostFunction via h
  throwing (setEntry t (.string h.name) (.function f))

/-- Registers a host function where it is to be found. -/
def registerFunction (s : Scope) (h : HostFunction) : Registration → Act Failure Unit
  | .none => pure ()
  | .global => do
    let t ← look fun w => w.globals
    registerIn h t
  | .table e => do
    match (← e.eval s).asTable? with
    | some t => registerIn h t
    | none => throw (.failed (.host "not a table"))

/-- Defines a host function. -/
def defineHostFunction (s : Scope) (name : String) (params : List TypeExpr)
    (registration : Registration) (body : Program) : Act Failure Result := do
  let ts ← TypeExpr.evalAll params
  let h : HostFunction := ⟨name, ts, body⟩
  registerFunction s h registration
  pure (.leaving (.hostFunction h) (.hostFunction name (ts.map HostType.name)))

/-- Defines a function with a script body. -/
def defineFunction (name : String) (isHost isGlobal : Bool) (body : Program) :
    Act Failure Result := do
  let f ← newFunction ⟨name, if isHost then .host else .script, .script body⟩
  if isGlobal then do
    let t ← look fun w => w.globals
    throwing (setEntry t (.string name) (.function f))
  replyScript (.function f)

end ScriptHost
