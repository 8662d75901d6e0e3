import ScriptHost.Run.Result

/-!
# Operations on errors
-/

set_option autoImplicit false

namespace ScriptHost

open Act

/-- A value raised in a scope: a script error on the script side, on the host side a failure that
carries it. -/
def raiseIn (s : Scope) (v : ScriptValue) : Act Failure Result :=
  match s.side with
  | .host _ _ _ => failWith fun w => .failed (.script ⟨v, some w.traceback⟩)
  | _ => throwing (raise v)

/-- What is known of a stored error. -/
def World.errorReport (w : World) : Failure → ErrorReport
  | .failed e => .bridge (w.failedView e) e
  | .raised e => .script e.message (w.raisedView e) (w.view e.value) e.traceback

/-- Runs an operation on errors. -/
def ErrorAction.run (s : Scope) : ErrorAction → Act Failure Result
  | .raise e => do
    let v ← e.eval s
    raiseIn s v
  | .raiseBare e => do
    let v ← e.eval s
    throw (.raised ⟨v, none⟩)
  | .runtimeError message => throwing (Act.runtimeError message)
  | .fail message => throw (.failed (.host message))
  | .rethrow name => do
    let f ← variableAs "error" name Stored.failure?
    throw f
  | .translate name => do
    match ← variableAs "error" name Stored.failure? with
    | .raised e => do
      let b ← look fun w => unwrapError w e
      replyWith (.failed b) fun w => .failure (w.failedView b)
    | .failed e => do
      let r ← throwing (toScriptError e)
      replyWith (.raised r) fun w => .failure (w.raisedView r)
  | .carry name => do
    let e ← variableAs "host failure" name fun | .failed e => some e | _ => none
    let u ← newUserdata (.carrier e)
    replyScript (.userdata u)
  | .describe name => do
    let f ← variableAs "error" name Stored.failure?
    reply fun w => .error (w.errorReport f)

end ScriptHost
