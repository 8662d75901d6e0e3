import ScriptHost.Run.Eval
import ScriptHost.World.View

/-!
# Results

An operation answers something and may have something to store. A script value is looked at when
the operation is done, so before anything is stored. A host value or an object is looked at when it
has been stored: by then the variable has let go of what it held.
-/

set_option autoImplicit false

namespace ScriptHost

/-- What is to be answered. -/
inductive Reply where
  /-- An answer that was made when the operation was done. -/
  | told (a : Answer)
  | host (v : HostValue)
  | slots (o : ObjectRef)

/-- The answer as it is now. -/
def Reply.answer (w : World) : Reply → Answer
  | .told a => a
  | .host v => .host (w.hostView v)
  | .slots o => .slots (w.slotsView o)

/-- What an operation answers, what it leaves for a variable, and what it keeps alive until the
answer has been made. -/
structure Result where
  reply : Reply
  store : Option Stored
  kept : List Handle

namespace Result

/-- An answer with nothing to store. -/
def told (a : Answer) : Result := ⟨.told a, none, []⟩

/-- Nothing to tell and nothing to store. -/
def nothing : Result := told .null

/-- An answer beside something to store. -/
def leaving (s : Stored) (a : Answer) : Result := ⟨.told a, some s, []⟩

/-- A host value to show and to store. -/
def host (v : HostValue) : Result := ⟨.host v, some (.host v), handles v⟩

/-- An object to show and to store. -/
def object (o : ObjectRef) : Result := ⟨.slots o, some (.object o), handles o⟩

/-- The same result, keeping more alive. -/
def keeping (hs : List Handle) (r : Result) : Result := { r with kept := hs ++ r.kept }

end Result

namespace Act

variable {ε : Type}

/-- Answers what the world says, with nothing to store. -/
def reply (f : World → Answer) : Act ε Result := look fun w => .told (f w)

/-- Answers about a result that is left for a variable. -/
def replyWith (s : Stored) (f : World → Answer) : Act ε Result :=
  holding (handles s) (look fun w => .leaving s (f w))

def replyScript (v : ScriptValue) : Act ε Result :=
  replyWith (.script v) fun w => .script (w.view v)

def replyScripts (vs : List ScriptValue) : Act ε Result :=
  replyWith (.scripts vs) fun w => .scripts (w.views vs)

/-- Makes the answer of a result now. -/
def answerOf (r : Result) : Act ε Answer := holding r.kept (look fun w => r.reply.answer w)

/-- Logs the answer of a result beside giving it. -/
def logging (r : Result) : Act ε Result := do
  let a ← answerOf r
  log a
  pure r

end Act

namespace World

/-- The view of an operation's failure. What a failure carries is alive while it is looked at. -/
def failureView (w : World) (f : Failure) : FailureView :=
  let w := { w with held := handles f ++ w.held }
  match f with
  | .raised e => w.raisedView e
  | .failed e => w.failedView e

end World

/-- A failure as a variable holds it. -/
def Failure.stored : Failure → Stored
  | .raised e => .raised e
  | .failed e => .failed e

/-- What a stored error fails with when it is thrown again. -/
def Stored.failure? : Stored → Option Failure
  | .raised e => some (.raised e)
  | .failed e => some (.failed e)
  | _ => none

end ScriptHost
