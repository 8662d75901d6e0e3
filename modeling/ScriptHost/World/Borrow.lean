import ScriptHost.World.Act

/-!
# Borrows

Code that reads an object's slots borrows it for reading, code that writes them borrows it for
writing. A borrow is refused while an outstanding one excludes it, and after that if the object
does not hold the payload asked for. An access that is over at once only asks, with `borrowed`; a
borrow that lasts while an act runs is `whileBorrowed`, which puts the earlier state back.
-/

set_option autoImplicit false

namespace ScriptHost

namespace Object

/-- The borrow state with one more borrow. -/
def lend (o : Object) (mutably : Bool) : Option Borrow :=
  if mutably then o.borrow.write? else o.borrow.read?

/-- Why a borrow is refused, if it is. -/
def refusal? (o : Object) (mutably : Bool) (expected : PayloadType) : Option AccessError :=
  if (o.lend mutably).isNone then some (.objectBorrowed o.cls.name)
  else if o.payload.type ≠ expected then some (.invalidReceiver o.cls.name expected.name)
  else none

end Object

namespace Act

/-- Asks for a borrow that is over at once. -/
def borrowed (o : ObjectRef) (mutably : Bool) (expected : PayloadType) :
    Act HostFailure Object := do
  let ob ← look fun w => w.object o
  match ob.refusal? mutably expected with
  | some e => throw (.binding e)
  | none => pure ob

/-- The value of a slot. -/
def readSlot (o : ObjectRef) (slot : String) : Act HostFailure HostValue := do
  let ob ← borrowed o false .slots
  pure (ob.payload.slotsOf.read slot)

/-- Stores into a slot. -/
def writeSlot (o : ObjectRef) (slot : String) (v : HostValue) : Act HostFailure Unit := do
  let ob ← borrowed o true .slots
  setObject o { ob with payload := .slots (ob.payload.slotsOf.write slot v) }

/-- Runs an act while the object is borrowed. The borrow state afterwards is the one before. -/
def whileBorrowed {ε α : Type} (o : ObjectRef) (mutably : Bool) (fail : HostFailure → ε)
    (m : Act ε α) : Act ε α := do
  let ob ← mapError (fun _ e => fail e) (borrowed o mutably .slots)
  setObject o { ob with borrow := (ob.lend mutably).getD ob.borrow }
  let r ← attempt m
  -- Only the borrow state goes back; what was written meanwhile stays.
  let now ← look fun w => w.object o
  setObject o { now with borrow := ob.borrow }
  ofExcept r

end Act

namespace World

/-- The slots of an object, if they can be read now. -/
def readableSlots? (w : World) (o : ObjectRef) : Option Slots :=
  let ob := w.object o
  match ob.refusal? false .slots with
  | some _ => none
  | none => some ob.payload.slotsOf

end World

end ScriptHost
