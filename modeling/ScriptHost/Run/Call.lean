import ScriptHost.Run.Scope

/-!
# Calls

A call pushes a frame, runs the function's code and pops the frame, whatever the outcome. How
bodies are run is a parameter here, so that the limit on nested calls can be counted down where
the knot is tied.

All host code is run by `runHostCode`: the guard, the number of arguments, their conversion from
left to right, the body, and the conversion of the results.
-/

set_option autoImplicit false

namespace ScriptHost

/-- What a body ended with. -/
inductive Given where
  | script (vs : List ScriptValue)
  | host (vs : List HostValue)

instance : Holds Given where
  handles
    | .script vs => handles vs
    | .host vs => handles vs

/-- How a body is run in a scope; none if it ends without giving anything. -/
abbrev Runner := Scope → Program → Act Failure (Option Given)

/-- How a function is called, inside a coroutine or not. -/
abbrev Caller := Bool → FunctionRef → List ScriptValue → Act ScriptError (List ScriptValue)

namespace Act

variable {α : Type}

/-- The script values a body gave. -/
def givenScript : Option Given → List ScriptValue
  | some (.script vs) => vs
  | _ => []

/-- The host values a body gave. -/
def givenHost : Option Given → List HostValue
  | some (.host vs) => vs
  | _ => []

/-- Runs a script body. Its arguments stay alive until it ends. -/
def runScriptBody (run : Runner) (inCoroutine : Bool) (args : List ScriptValue) (body : Program) :
    Act ScriptError (List ScriptValue) := do
  let g ← holding (handles args) (intoScript (run ⟨inCoroutine, .script args⟩ body))
  pure (givenScript g)

/-- Runs a host body. Its arguments stay alive until it ends. -/
def runHostBody (run : Runner) (inCoroutine : Bool) (via : BindingRef) (receiver : Option ObjectRef)
    (body : Program) (args : List HostValue) : Act HostFailure (List HostValue) := do
  let g ← holding (handles args) (intoHost (run ⟨inCoroutine, .host via receiver args⟩ body))
  pure (givenHost g)

/-- Arguments converted to the parameter types; missing ones count as nil. -/
def acceptEach (via : BindingRef) :
    List HostType → List ScriptValue → Act HostFailure (List HostValue)
  | [], _ => pure []
  | t :: ts, args => do
    let h ← converting (toHost via t (args.headD .nil))
    -- Objects made for this argument have to outlast the conversion of those after it.
    let hs ← holding (handles h) (acceptEach via ts args.tail)
    pure (h :: hs)

/-- The arguments of a host function: not too many, and each of its declared type. -/
def acceptArgs (via : BindingRef) (name : String) (params : List HostType)
    (args : List ScriptValue) : Act HostFailure (List HostValue) :=
  if params.length < args.length then
    throw (.binding (.argumentCount name params.length args.length))
  else acceptEach via params args

/-- **Host code on behalf of a script call.** -/
def runHostCode (inCoroutine : Bool) (via : BindingRef) (name : String) (params : List HostType)
    (args : List ScriptValue) (body : List HostValue → Act HostFailure (List HostValue)) :
    Act ScriptError (List ScriptValue) := do
  -- Before the arguments: to convert them may run constructors and setters.
  raising (guard inCoroutine name)
  let hostArgs ← raising (holding (handles args) (acceptArgs via name params args))
  let results ← raising do
    note (.body via name params hostArgs)
    body hostArgs
  toScriptAll via results

/-- Whether an argument is a proxy that reaches the given target now. -/
def reachesTarget (w : World) (t : Target) : Option ScriptValue → Bool
  | some (.userdata u) => match w.proxyTarget? u with
    | some s => s.same t
    | none => false
  | _ => false

/-- The arguments of a method without the proxy it was called on: that is the first of one argument
too many. -/
def withoutSelf (w : World) (t : Target) (arity : Nat) (args : List ScriptValue) :
    List ScriptValue :=
  if args.length = arity + 1 ∧ reachesTarget w t args.head? then args.tail else args

/-- The receiver of a method: a static method has none, an instance method needs one. -/
def methodReceiver (t : Target) (m : Method) : Act HostFailure (Option ObjectRef) :=
  if m.isStatic then pure none
  else do
    let o ← needReceiver t.cls.name m.name t.receiver?
    pure (some o)

/-- Runs a function's code. -/
def invokeCode (run : Runner) (inCoroutine : Bool) (f : FunctionRef) (args : List ScriptValue) :
    Act ScriptError (List ScriptValue) := do
  let fn ← look fun w => w.function f
  match fn.code with
  | .script body => runScriptBody run inCoroutine args body
  | .host via h =>
    runHostCode inCoroutine via h.name h.params args (runHostBody run inCoroutine via none h.body)
  | .method via named m => do
    -- The function does not keep its object alive. From here on the call does.
    let t ← raising (reachTarget named)
    holding (handles t) do
      let rest ← look fun w => withoutSelf w t m.params.length args
      runHostCode inCoroutine via fn.name m.params rest fun hostArgs => do
        let receiver ← methodReceiver t m
        runHostBody run inCoroutine via receiver m.body hostArgs

/-- Runs an act in a frame of its own. -/
def framed {ε : Type} (inCoroutine : Bool) (f : FunctionRef) (m : Act ε α) : Act ε α := do
  change fun w => { w with frames := f :: w.frames }
  note (.called f inCoroutine)
  -- An error is kept back until the frame is popped.
  let r ← attempt m
  change fun w => { w with frames := w.frames.tail }
  note (.returned f)
  ofExcept r

/-! ### Through a caller -/

/-- Calls a value, which has to be a function. -/
def apply (call : Caller) (inCoroutine : Bool) (callee : ScriptValue)
    (args : List ScriptValue) : Act ScriptError (List ScriptValue) :=
  match callee with
  | .function f => call inCoroutine f args
  | v => runtimeError ("attempt to call a " ++ v.kind.name ++ " value")

/-- Calls `target[key]`. The key is needed no longer once the function is found. -/
def invoke (call : Caller) (inCoroutine : Bool) (target key : ScriptValue)
    (args : List ScriptValue) : Act ScriptError (List ScriptValue) := do
  let callee ← holding (handles key ++ handles args) (index inCoroutine target key)
  holding (handles callee) (apply call inCoroutine callee args)

/-- Resumes a coroutine: its function is called inside a coroutine, once and for all. -/
def resume (call : Caller) (c : CoroutineRef) (args : List ScriptValue) :
    Act ScriptError (List ScriptValue) := do
  let co ← look fun w => w.coroutine c
  match co.status with
  | .running => runtimeError "cannot resume non-suspended coroutine"
  | .dead => runtimeError "cannot resume dead coroutine"
  | .suspended => do
    setCoroutineStatus c .running
    note (.resumed c)
    -- Nothing yields, so the coroutine is dead when its function is done, or has failed.
    let r ← attempt (call true co.function args)
    setCoroutineStatus c .dead
    note (.finished c)
    ofExcept r

/-- Calls from the host: arguments go to script, errors come back. -/
def hostCall (call : Caller) (inCoroutine : Bool) (via : BindingRef) (callee : ScriptValue)
    (args : List HostValue) : Act HostFailure (List ScriptValue) := do
  let vs ← toScriptAll via args
  catching (apply call inCoroutine callee vs)

end Act

end ScriptHost
