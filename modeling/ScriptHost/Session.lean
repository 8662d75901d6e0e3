import ScriptHost.Run.Exec

/-!
# Sessions

A session runs operations against one bridge and gives one entry for each: what it answered or how
it failed, and what was logged meanwhile. A failing operation does not end the session.
-/

set_option autoImplicit false

namespace ScriptHost

open Act

/-- What one operation of a session led to. -/
structure SessionEntry where
  outcome : Except FailureView Answer
  log : List Answer

/-- Runs one operation of a session. -/
def World.step (w : World) (op : Op) : SessionEntry × World :=
  match (op.run (callWithin w.maxDepth) .top).outcome { w with log := [] } with
  | (.ok (.answer a), w') => (⟨.ok a, w'.log.reverse⟩, w')
  -- There is no body to give a result of.
  | (.ok (.give _), w') => (⟨.ok .null, w'.log.reverse⟩, w')
  | (.error f, w') => (⟨.error (w'.failureView f), w'.log.reverse⟩, w')

/-- Runs the operations of a session in order. -/
def World.runSession (w : World) : List Op → List SessionEntry
  | [] => []
  | op :: rest =>
    let (entry, w') := w.step op
    entry :: w'.runSession rest

/-- **A session** from its configuration and its operations. Every object has an address of its
own. -/
def runSession (c : Config) (ops : List Op) : List SessionEntry :=
  (World.start c fun r => r.index).runSession ops

end ScriptHost
