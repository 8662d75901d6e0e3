import ScriptHost.Class.Payload
import ScriptHost.Program.Op

/-!
# Members

What a class exposes: methods, properties and fields. A method runs a program. A getter reads a slot
or gives a constant; a setter stores into a slot or refuses with a message. Only a static property
gives a constant, and only instance members touch slots.
-/

set_option autoImplicit false

namespace ScriptHost

/-- How a property is read. -/
inductive Getter where
  | slot (name : String)
  | constant (v : HostValue)

/-- How a property or a field is written. -/
inductive Setter where
  | slot (name : String)
  | refuse (message : String)
  deriving DecidableEq

/-- A callable member. -/
structure Method where
  name : String
  params : List HostType
  isStatic : Bool
  isPublic : Bool
  body : Program

/-- A property. `arity` is the number of index arguments, zero for a plain property. -/
structure Property where
  name : String
  type : HostType
  isStatic : Bool
  isPublic : Bool
  arity : Nat
  getter : Option Getter
  setter : Option Setter

/-- A data field of an instance. -/
structure Field where
  name : String
  type : HostType
  isPublic : Bool
  slot : String
  setter : Option Setter

/-- Whether the property is reached with index arguments. -/
def Property.isIndexer (p : Property) : Bool := 0 < p.arity

/-- One member of a class. -/
inductive Member where
  | method (m : Method)
  | property (p : Property)
  | field (f : Field)

namespace Member

def name : Member → String
  | .method m => m.name
  | .property p => p.name
  | .field f => f.name

def isStatic : Member → Bool
  | .method m => m.isStatic
  | .property p => p.isStatic
  | .field _ => false

def isPublic : Member → Bool
  | .method m => m.isPublic
  | .property p => p.isPublic
  | .field f => f.isPublic

def isMethod : Member → Bool
  | .method _ => true
  | _ => false

def isIndexer : Member → Bool
  | .property p => p.isIndexer
  | _ => false

/-- The name of the member's kind. -/
def kindName : Member → String
  | .method _ => "method"
  | .property _ => "property"
  | .field _ => "field"

/-- The same member, hidden from public lookups. -/
def hide : Member → Member
  | .method m => .method { m with isPublic := false }
  | .property p => .property { p with isPublic := false }
  | .field f => .field { f with isPublic := false }

/-- What a member keeps alive: the classes its types mention and its constant. -/
def held : Member → List Handle
  | .method m => handles m.params
  | .property p =>
    handles p.type ++ (match p.getter with | some (.constant v) => handles v | _ => [])
  | .field f => handles f.type

instance : Holds Member := ⟨held⟩

end Member

end ScriptHost
