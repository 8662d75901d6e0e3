import ScriptHost.World.Borrow
import ScriptHost.Class.Lookup

/-!
# Access to members

Getters and setters run on the receiver, which an instance member needs. `assignKey` assigns to the
single permitted member that a key denotes; the conversion of the value to the member's type is a
parameter, because tables that become objects are filled through it as well.
-/

set_option autoImplicit false

namespace ScriptHost

namespace Act

/-- The receiver an instance member needs. -/
def needReceiver (cls member : String) : Option ObjectRef → Act HostFailure ObjectRef
  | some o => pure o
  | none => throw (.binding (.missingReceiver cls member))

/-- Runs a getter. -/
def runGetter (cls member : String) (receiver : Option ObjectRef) :
    Getter → Act HostFailure HostValue
  | .constant v => pure v
  | .slot s => do
    let o ← needReceiver cls member receiver
    readSlot o s

/-- Runs a setter with a converted value. -/
def runSetter (cls member : String) (receiver : Option ObjectRef) (v : HostValue) :
    Setter → Act HostFailure Unit
  | .slot s => do
    let o ← needReceiver cls member receiver
    writeSlot o s v
  | .refuse message => do
    -- A setter that refuses has borrowed its object all the same.
    let o ← needReceiver cls member receiver
    let _ ← borrowed o true .slots
    throw (.host message)

/-- The value of a property or a field; none for a method. -/
def readMember (via : BindingRef) (c : ClassRef) (receiver : Option ObjectRef) (m : Member) :
    Act HostFailure (Option HostValue) :=
  match m with
  | .method _ => pure none
  | .property p =>
    if p.isIndexer then throw (.binding (.indexerUnsupported c.name p.name))
    else match p.getter with
      | none => throw (.binding (.writeOnly c.name p.name))
      | some g => do
        note (.getter via c m)
        let v ← runGetter c.name p.name receiver g
        pure (some v)
  | .field f => do
    let o ← needReceiver c.name f.name receiver
    note (.getter via c m)
    let v ← runGetter c.name f.name (some o) (.slot f.slot)
    pure (some v)

/-- How script values are converted to a host type. -/
abbrev Converter := HostType → ScriptValue → Act ConversionError HostValue

/-- A value converted for a member. The reason of a failure is not told, only that it does not
fit. -/
def convertFor (convert : Converter) (c : ClassRef) (member : String) (t : HostType)
    (v : ScriptValue) : Act HostFailure HostValue :=
  mapError (fun _ _ => .binding (.incompatibleValue c.name member t.name v.kind)) (convert t v)

/-- Assigns to one member. -/
def assignMember (convert : Converter) (via : BindingRef) (c : ClassRef)
    (receiver : Option ObjectRef) (m : Member) (v : ScriptValue) : Act HostFailure Unit :=
  match m with
  | .method x => throw (.binding (.readOnly c.name x.name))
  | .property p =>
    if p.isIndexer then throw (.binding (.indexerUnsupported c.name p.name))
    else match p.setter with
      | none => throw (.binding (.readOnly c.name p.name))
      | some s => do
        let h ← convertFor convert c p.name p.type v
        note (.setter via c m h)
        runSetter c.name p.name receiver h s
  | .field f =>
    match f.setter with
    | none => throw (.binding (.readOnly c.name f.name))
    | some s => do
      -- A field wants its receiver before the value is converted, a property after that.
      let o ← needReceiver c.name f.name receiver
      let h ← convertFor convert c f.name f.type v
      note (.setter via c m h)
      runSetter c.name f.name (some o) h s

/-- **Writing** through a key: exactly one permitted member has to match. -/
def assignKey (convert : Converter) (via : BindingRef) (c : ClassRef)
    (receiver : Option ObjectRef) (k : MemberKey) (v : ScriptValue) : Act HostFailure Unit := do
  match ← look fun w => (w.binding via).resolve (w.cls c) k receiver.isSome with
  | [m] => assignMember convert via c receiver m v
  -- Overloads of a method are as little to assign to as no member at all.
  | _ => throw (.binding (.memberNotFound c.name k.display))

/-- A fresh instance with a payload of the type that the class holds. -/
def instantiate (c : ClassRef) (p : Payload) : Act HostFailure ObjectRef := do
  let expected ← look fun w => (w.cls c).holds
  if p.type = expected then newObject ⟨c, p, .free⟩
  else throw (.registration (.typeMismatch c.name p.type.name))

/-- A fresh instance made by the class's constructor. -/
def construct (c : ClassRef) : Act ConversionError ObjectRef := do
  match ← look fun w => (w.cls c).constructor with
  | some s => do
    note (.constructor c)
    newObject ⟨c, .slots s, .free⟩
  | none => throw (.missingConstructor c.name)

end Act

end ScriptHost
