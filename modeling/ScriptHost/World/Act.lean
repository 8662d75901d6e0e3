import ScriptHost.World.Liveness

/-!
# Acts

An act changes the world and succeeds with a value or fails with an error; either way the changes
it made stay. Acts differ in what they fail with: script errors on the script side, host failures
on the host side.

`holding` keeps things alive while an act runs and lets go of them afterwards. What a running act
still needs is held in this way, so nothing dies while it is in use.
-/

set_option autoImplicit false

namespace ScriptHost

/-- A step of a session. -/
abbrev Act (ε α : Type) := ExceptT ε (StateM World) α

namespace Act

variable {ε ε' α : Type}

/-- The act that a function of the world describes. -/
def make (f : World → Except ε α × World) : Act ε α := ExceptT.mk f

/-- The outcome of an act and the world after it. -/
def outcome (m : Act ε α) (w : World) : Except ε α × World := m.run w

/-- Looks at the world. -/
def look (f : World → α) : Act ε α := make fun w => (.ok (f w), w)

/-- Changes the world. -/
def change (f : World → World) : Act ε Unit := make fun w => (.ok (), f w)

/-- Fails with what the world says. -/
def failWith (f : World → ε) : Act ε α := make fun w => (.error (f w), w)

/-- Never fails: the outcome becomes the value. -/
def attempt (m : Act ε α) : Act ε' (Except ε α) :=
  make fun w => let (r, w') := m.outcome w; (.ok r, w')

/-- Errors are reworded, with a look at the world in which they arose. -/
def mapError (f : World → ε → ε') (m : Act ε α) : Act ε' α :=
  make fun w => match m.outcome w with
    | (.ok a, w') => (.ok a, w')
    | (.error e, w') => (.error (f w' e), w')

/-- A pure outcome as an act. -/
def ofExcept (r : Except ε α) : Act ε α := make fun w => (r, w)

/-- Keeps things alive while the act runs. -/
def holding (hs : List Handle) (m : Act ε α) : Act ε α :=
  make fun w =>
    let (r, w') := m.outcome { w with held := hs ++ w.held }
    (r, { w' with held := w.held })

/-! ### Making things -/

def newTable (t : Table) : Act ε TableRef :=
  make fun w => (.ok w.tables.next, { w with tables := w.tables.push t })

def newFunction (f : Function) : Act ε FunctionRef :=
  make fun w => (.ok w.functions.next, { w with functions := w.functions.push f })

def newUserdata (u : Userdata) : Act ε UserdataRef :=
  make fun w => (.ok w.userdata.next, { w with userdata := w.userdata.push u })

def newObject (o : Object) : Act ε ObjectRef :=
  make fun w => (.ok ⟨w.objects.next, o.cls⟩, { w with objects := w.objects.push o })

def newClass (c : HostClass) : Act ε ClassRef :=
  make fun w => (.ok ⟨w.classes.next, c.name⟩, { w with classes := w.classes.push c })

def newCoroutine (c : Coroutine) : Act ε CoroutineRef :=
  make fun w => (.ok w.coroutines.next, { w with coroutines := w.coroutines.push c })

def newBinding (b : Binding) : Act ε BindingRef :=
  make fun w => (.ok w.bindings.next, { w with bindings := w.bindings.push b })

/-! ### Changing things -/

def setTable (t : TableRef) (v : Table) : Act ε Unit :=
  change fun w => { w with tables := w.tables.set t v }

def setUserdata (u : UserdataRef) (v : Userdata) : Act ε Unit :=
  change fun w => { w with userdata := w.userdata.set u v }

def setObject (o : ObjectRef) (v : Object) : Act ε Unit :=
  change fun w => { w with objects := w.objects.set o.ref v }

def setCoroutineStatus (c : CoroutineRef) (s : CoroutineStatus) : Act ε Unit :=
  change fun w => { w with coroutines := w.coroutines.set c { w.coroutine c with status := s } }

def setCache (b : BindingRef) (c : ProxyCache) : Act ε Unit :=
  change fun w => { w with bindings := w.bindings.set b { w.binding b with cache := c } }

/-- Writes down what happened. -/
def note (e : Event) : Act ε Unit := change fun w => { w with journal := e :: w.journal }

/-- Appends to the log. -/
def log (a : Answer) : Act ε Unit := change fun w => { w with log := a :: w.log }

/-- Assigns a variable. -/
def assign (name : String) (v : Stored) : Act ε Unit :=
  change fun w => { w with vars := (name, v) :: w.vars.filter fun p => p.1 != name }

/-- Writes a table entry. A key that is none is an error without a traceback. -/
def setEntry (t : TableRef) (key value : ScriptValue) : Act ScriptError Unit := do
  let entries ← look fun w => w.table t
  match entries.set key value with
  | .ok entries => setTable t entries
  | .error fault => throw ⟨.string fault.message, none⟩

/-- Raises a value from the current calls. -/
def raise (v : ScriptValue) : Act ScriptError α := failWith fun w => ⟨v, some w.traceback⟩

/-- Raises a message from the current calls. -/
def runtimeError (message : String) : Act ScriptError α := raise (.string message)

end Act

end ScriptHost
