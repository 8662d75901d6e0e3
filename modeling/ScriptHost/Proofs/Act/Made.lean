import ScriptHost.Proofs.Act.License
import ScriptHost.Proofs.BuiltClass

/-!
# What is made

Classes, objects and functions that run methods are each made in one way only, and what is made fits
what it is made for. A class is built from members that were declared, an object gets a payload of the
type that its class holds, and a method is read from a target on which a lookup found it and nothing
else. This says so of the things alone, or of them and the world in which they are made.
-/

set_option autoImplicit false

namespace ScriptHost

/-! ### Members and classes -/

/-- Of properties, exactly the static ones give a constant, and static ones are not set. -/
structure Property.Regular (p : Property) : Prop where
  static : p.isStatic = true → (∃ v, p.getter = some (.constant v)) ∧ p.setter = none
  instance_ : p.isStatic = false → ∀ v, p.getter ≠ some (.constant v)

/-- A member as a declaration makes it. -/
def Member.Regular : Member → Prop
  | .property p => p.Regular
  | _ => True

theorem Member.Regular.hide {m : Member} (h : m.Regular) : m.hide.Regular := by
  cases m with
  | property p => exact ⟨h.static, h.instance_⟩
  | _ => trivial

/-- A class as declarations make it: it was built, and from such members. -/
structure HostClass.Declared (c : HostClass) : Prop where
  built : build c.name c.members c.constructor c.display = .ok c
  regular : ∀ m ∈ c.members, m.Regular

/-- What was built from members that were declared is a declared class. -/
theorem HostClass.declared_of_build {name : String} {ms : List Member} {ctor : Option Slots}
    {display : Option (List DisplayPart)} {c : HostClass} (h : build name ms ctor display = .ok c)
    (hms : ∀ m ∈ ms, m.Regular) : c.Declared := by
  obtain ⟨hname, -, hmembers, hctor, hdisplay, -⟩ := build_ok h
  refine ⟨?_, hmembers ▸ hms⟩
  rw [hname, hmembers, hctor, hdisplay]
  exact h

/-- What a class declares and what its objects hold go together. -/
theorem HostClass.Declared.holds {c : HostClass} (h : c.Declared) : c.holds = .slots :=
  (build_ok h.built).2.1

/-! ### Objects and functions -/

/-- A payload for an instance of the class: slots, or of the type that the class holds. -/
def World.Suits (w : World) (c : ClassRef) (p : Payload) : Prop :=
  p.type = .slots ∨ p.type = (w.cls c).holds

/-- A method was found on the target that it is to run on, alone under its key. -/
def Code.FoundIn (w : World) : Code → Prop
  | .method via t m =>
    ∃ k, (w.binding via).resolve (w.cls t.cls) k t.isInstance = [.method m]
  | _ => True

/-- Whether the code is that of a method. -/
def Code.isMethod : Code → Bool
  | .method .. => true
  | _ => false

/-- Only the code of a method has to be found somewhere. -/
theorem Code.foundIn_of_not_method {c : Code} (h : c.isMethod = false) (w : World) :
    c.FoundIn w := by
  cases c with
  | method via t m => cases h
  | _ => trivial

end ScriptHost
