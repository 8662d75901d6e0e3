import ScriptHost.Run.Class
import ScriptHost.Run.Conversion
import ScriptHost.Run.Error
import ScriptHost.Run.Invoke
import ScriptHost.Run.Proxy
import ScriptHost.Run.Value

/-!
# Running programs

Operations run one after another. A failure that is not caught ends the body, and so does giving a
result, also from inside a conditional or a borrow.

The number of calls that may still be nested is counted down with every call, so that running a
program always ends: the recursion is on the program inside a body, and on that number from one body
to the next. At zero a call overflows the stack instead of starting its function.
-/

set_option autoImplicit false

namespace ScriptHost

open Act

/-- How an operation ended: with an answer, or with the result of the body it stands in. -/
inductive Outcome where
  | answer (a : Answer)
  | give (g : Given)

/-- Logs an answer if that is wanted, and withholds it if it is to be quiet. -/
def Disposition.deliver (d : Disposition) (a : Answer) : Act Failure Outcome := do
  if d.logged then log a
  pure (.answer (if d.quiet then .null else a))

/-- Stores, logs and catches as an operation asks for. A failure is looked at before it is stored,
so before the variable lets go of what it held. -/
def Disposition.settle (d : Disposition) (m : Act Failure Result) : Act Failure Outcome := do
  match ← attempt m with
  | .ok r => do
    let a ← holding r.kept do
      match d.store, r.store with
      | some name, some v => assign name v
      | _, _ => pure ()
      -- Looked at last, so the answer shows what the variable let go of.
      look fun w => r.reply.answer w
    d.deliver a
  | .error f => match d.catchAs with
    | none => throw f
    | some name => do
      let a ← look fun w => .caught (w.failureView f)
      assign name f.stored
      d.deliver a

/-- The same for an operation that may give the result of the body it stands in. A result that is
given is neither logged nor stored; a failure to give one is caught like any other. -/
def Disposition.settleGiving (d : Disposition) (m : Act Failure (Option Given)) :
    Act Failure Outcome := do
  match ← attempt m with
  | .ok (some g) => pure (.give g)
  | .ok none => d.deliver .null
  | .error f => d.settle (throw f)

/-- Runs an action. -/
def Action.run (call : Caller) (s : Scope) : Action → Act Failure Result
  | .value a => a.run s
  | .table a => a.run s
  | .call a => a.run call s
  | .error a => a.run s
  | .conversion a => a.run s
  | .cls a => a.run s
  | .proxy a => a.run s

mutual

/-- Runs one operation. -/
def Op.run (call : Caller) (s : Scope) : Op → Act Failure Outcome
  | .act d a => d.settle (a.run call s)
  | .giveScript d items => d.settleGiving do
    let vs ← items.eval s
    pure (some (.script vs))
  | .giveHost d items => d.settleGiving do
    let vs ← items.eval s
    pure (some (.host vs))
  | .branch d cond yes no => d.settleGiving do
    let v ← cond.eval s
    if v.isTruthy then Op.runAll call s yes else Op.runAll call s no
  | .borrow d object mutably body => d.settleGiving do
    let o ← objectOrReceiver s object
    holding (handles o) (whileBorrowed o mutably Failure.failed (Op.runAll call s body))
  | .function d name isHost isGlobal body => d.settle (defineFunction name isHost isGlobal body)
  | .hostFunction d name params registration body =>
    d.settle (defineHostFunction s name params registration body)
  | .cls d spec => d.settle (spec.define s)

/-- Runs operations in order until one gives the result of the body or fails. -/
def Op.runAll (call : Caller) (s : Scope) : List Op → Act Failure (Option Given)
  | [] => pure none
  | op :: rest => do
    match ← Op.run call s op with
    | .give g => pure (some g)
    | .answer _ => Op.runAll call s rest

end

/-- **Calling a function** with so many calls left to nest. -/
def callWithin : Nat → Caller
  -- The frame of the function that is not called is not in the traceback.
  | 0 => fun _ _ _ => runtimeError "stack overflow"
  | n + 1 => fun inCoroutine f args =>
    framed inCoroutine f (invokeCode (Op.runAll (callWithin n)) inCoroutine f args)

end ScriptHost
