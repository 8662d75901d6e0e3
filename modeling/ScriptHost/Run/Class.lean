import ScriptHost.Run.Result

/-!
# Operations on classes and instances
-/

set_option autoImplicit false

namespace ScriptHost

open Act

/-- Some payload of a type. -/
def PayloadType.sample : PayloadType → Payload
  | .slots => .slots []
  | .byte => .byte 0
  | .float => .float ⟨0⟩
  | .bool => .bool false

/-- What is known of a weak handle. -/
def World.weakReport (w : World) (o : ObjectRef) : WeakReport :=
  if w.alive o.ref.handle then ⟨true, o.cls.name, some (w.slotsView o), some true⟩
  else ⟨false, o.cls.name, none, none⟩

/-- Puts a fresh proxy of a class into the globals. -/
def registerClass (c : ClassRef) (name : String) : Act Failure Unit := do
  let via ← look fun w => w.bridge
  let u ← newProxy via (.type c)
  let t ← look fun w => w.globals
  throwing (setEntry t (.string name) (.userdata u))

/-- Runs an operation on classes or instances. -/
def ClassAction.run (s : Scope) : ClassAction → Act Failure Result
  | .id name => pure (.told (.classId (HostClass.idOf name)))
  | .membersNamed cls name => do
    let c ← classVar cls
    reply fun w => .members ((w.cls c).membersNamed name)
  | .register cls as => do
    let c ← classVar cls
    registerClass c (as.getD c.name)
    pure .nothing
  | .instantiate cls initial => do
    let c ← classVar cls
    let values ← HostExpr.evalSlots s initial
    let o ← failing (Act.instantiate c (.slots (Slots.ofList values)))
    pure (.object o)
  | .instantiateAs cls payload => do
    let c ← classVar cls
    let o ← failing (Act.instantiate c payload.sample)
    pure (.object o)
  | .construct cls => do
    let c ← classVar cls
    let o ← failing (converting (Act.construct c))
    pure (.object o)
  | .slots object => do
    let o ← objectOrReceiver s object
    reply fun w => .slots (w.slotsView o)
  | .getSlot object slot => do
    let o ← objectOrReceiver s object
    let v ← failing (readSlot o slot)
    pure (Result.host v |>.keeping (handles o))
  | .setSlot object slot value => do
    let o ← objectOrReceiver s object
    let v ← value.eval s
    failing (writeSlot o slot v)
    pure .nothing
  | .borrowAs object payload mutably => do
    let o ← objectOrReceiver s object
    let _ ← failing (borrowed o mutably payload)
    pure .nothing
  | .sameObject a b => do
    let x ← objectVar a
    let y ← objectVar b
    reply fun w => .same (x.same y) (w.layout x.ref == w.layout y.ref) (x.cls.same y.cls)
  | .downgrade object => do
    let o ← objectOrReceiver s object
    pure (.leaving (.weak o) .null)
  | .describeWeak name => do
    let o ← weakVar name
    reply fun w => .weak (w.weakReport o)
  | .upgrade name => do
    let o ← weakVar name
    match ← look fun w => w.alive o.ref.handle with
    | true => pure (.object o)
    | false => pure .nothing
  | .display object => do
    let o ← objectOrReceiver s object
    reply fun w => match w.classDisplay? o with
      | some t => .diagnostic t
      | none => .null

/-- A member from its declaration. -/
def declare (s : Scope) : Declaration Program → Act Failure (Option Member)
  | .field name type slot settable refusal => do
    let t ← type.eval
    pure (some (.field ⟨name, t, true, slot,
      if settable then some ((refusal.map Setter.refuse).getD (.slot slot)) else none⟩))
  | .property name type slot readable settable refusal => do
    let t ← type.eval
    pure (some (.property ⟨name, t, false, true, 0,
      if readable then some (.slot slot) else none,
      if settable then some ((refusal.map Setter.refuse).getD (.slot slot)) else none⟩))
  | .indexer name type slot arity => do
    let t ← type.eval
    -- Without an index argument it would be a plain property.
    pure (some (.property ⟨name, t, false, true, max arity 1, some (.slot slot), none⟩))
  | .staticProperty name type value => do
    let t ← type.eval
    let v ← value.eval s
    pure (some (.property ⟨name, t, true, true, 0, some (.constant v), none⟩))
  | .method name params isStatic body => do
    let ts ← TypeExpr.evalAll params
    pure (some (.method ⟨name, ts, isStatic, true, body⟩))
  | .nonPublic => pure none

/-- The members so far, the last one first, after one more declaration. A declaration without a
member of its own hides the member before it. -/
def addMember : Option Member → List Member → List Member
  | some m, done => m :: done
  | none, m :: done => m.hide :: done
  | none, [] => []

/-- The members of a class from its declarations in order; the last one comes first. What the
members hold stays alive until all are declared. -/
def declareAll (s : Scope) :
    List (Declaration Program) → List Member → Act Failure (List Member)
  | [], done => pure done
  | d :: ds, done => do
    let m ← declare s d
    holding (handles m) (declareAll s ds (addMember m done))

/-- The slots that a class's constructor starts from. -/
def initialSlots (s : Scope) : Option (List (String × HostExpr)) → Act Failure (Option Slots)
  | some slots => do
    let values ← HostExpr.evalSlots s slots
    pure (some (Slots.ofList values))
  | none => pure none

/-- Defines a class. -/
def ClassSpec.define (s : Scope) (spec : ClassSpec Program) : Act Failure Result := do
  let members ← declareAll s spec.declarations []
  let constructor ← holding (handles members) (initialSlots s spec.constructor)
  match HostClass.build spec.name members.reverse constructor spec.display with
  | .ok info => do
    let c ← newClass info
    pure (.leaving (.cls c) (.cls info))
  | .error e => throw (.failed (.registration e))

end ScriptHost
