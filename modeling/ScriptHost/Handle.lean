/-!
# Handles

Everything shared lives in a store of the world and is named by a handle: a kind and an index. Two
handles denote the same thing exactly when they are equal. `Ref k` is a handle whose kind is known
from its type; `Handle` forgets it, where things of different kinds are put into one list.
-/

set_option autoImplicit false

namespace ScriptHost

/-- The kinds of shared things. -/
inductive Kind where
  | table
  | function
  | userdata
  | object
  | cls
  | coroutine
  | binding
  deriving DecidableEq

/-- A handle to something of kind `k`. -/
structure Ref (k : Kind) where
  index : Nat
  deriving DecidableEq, Inhabited

/-- A handle to something of any kind. -/
structure Handle where
  kind : Kind
  index : Nat
  deriving DecidableEq

abbrev TableRef := Ref .table
abbrev FunctionRef := Ref .function
abbrev UserdataRef := Ref .userdata
abbrev CoroutineRef := Ref .coroutine
abbrev BindingRef := Ref .binding

/-- The handle without its kind in the type. -/
def Ref.handle {k : Kind} (r : Ref k) : Handle := ⟨k, r.index⟩

theorem Ref.handle_injective {k : Kind} {a b : Ref k} (h : a.handle = b.handle) : a = b := by
  cases a; cases b; simpa [Ref.handle] using h

/-- A class together with its name, which every diagnostic shows. -/
structure ClassRef where
  ref : Ref .cls
  name : String
  deriving DecidableEq, Inhabited

/-- The same class, whatever the names. -/
def ClassRef.same (a b : ClassRef) : Bool := a.ref == b.ref

/-- An object together with the class it is an instance of. -/
structure ObjectRef where
  ref : Ref .object
  cls : ClassRef
  deriving DecidableEq, Inhabited

/-- The same object. -/
def ObjectRef.same (a b : ObjectRef) : Bool := a.ref == b.ref

/-- The handles a value keeps alive. -/
class Holds (α : Type) where
  handles : α → List Handle

export Holds (handles)

instance {α : Type} [Holds α] : Holds (List α) := ⟨fun xs => xs.flatMap handles⟩

instance {α : Type} [Holds α] : Holds (Option α) := ⟨fun x => x.toList.flatMap handles⟩

instance {α β : Type} [Holds α] [Holds β] : Holds (α × β) := ⟨fun p => handles p.1 ++ handles p.2⟩

instance : Holds Unit := ⟨fun _ => []⟩

instance : Holds Bool := ⟨fun _ => []⟩

instance : Holds ClassRef := ⟨fun c => [c.ref.handle]⟩

instance : Holds ObjectRef := ⟨fun o => [o.ref.handle, o.cls.ref.handle]⟩

end ScriptHost
