import ScriptHost.Handle

/-!
# Declared host types

The type of a parameter, a property or a field. Conversion of script values is driven by it.
-/

set_option autoImplicit false

namespace ScriptHost

/-- The widths of host integers. -/
inductive Width where
  | w8
  | w16
  | w32
  | w64
  deriving DecidableEq

def Width.bits : Width → Nat
  | .w8 => 8
  | .w16 => 16
  | .w32 => 32
  | .w64 => 64

/-- A host integer type. -/
structure IntType where
  signed : Bool
  width : Width
  deriving DecidableEq

/-- One more than the greatest value of the type. -/
def IntType.bound (t : IntType) : Nat :=
  1 <<< (if t.signed then t.width.bits - 1 else t.width.bits)

/-- The least value of the type. -/
def IntType.min (t : IntType) : Int := if t.signed then -(t.bound : Int) else 0

/-- The greatest value of the type. -/
def IntType.max (t : IntType) : Int := (t.bound : Int) - 1

def IntType.name (t : IntType) : String := (if t.signed then "i" else "u") ++ toString t.width.bits

/-- A declared host type. -/
inductive HostType where
  | void
  | bool
  | integer (t : IntType)
  | single
  | double
  | string
  /-- An array of one element type. -/
  | array (element : HostType)
  /-- An instance of a class. -/
  | object (c : ClassRef)
  /-- The inner type or null. -/
  | nullable (inner : HostType)
  /-- A script table, passed as it is. -/
  | table
  /-- A script function, passed as it is. -/
  | function
  /-- Whatever the script passes. -/
  | any
  deriving DecidableEq, Inhabited

namespace HostType

/-- Whether nil converts to null for this type. -/
def admitsNull : HostType → Bool
  | .nullable _ | .string | .array _ | .object _ | .table | .function | .any => true
  | _ => false

def isInteger : HostType → Bool
  | .integer _ => true
  | _ => false

def isNumeric : HostType → Bool
  | .integer _ | .single | .double => true
  | _ => false

/-- The name diagnostics use, such as `string[]` or `i32?`. -/
def name : HostType → String
  | .void => "void"
  | .bool => "bool"
  | .integer t => t.name
  | .single => "f32"
  | .double => "f64"
  | .string => "string"
  | .array element => element.name ++ "[]"
  | .object c => c.name
  | .nullable inner => inner.name ++ "?"
  | .table => "table"
  | .function => "function"
  | .any => "any"

/-- Equality of types; classes are compared by identity. -/
def same : HostType → HostType → Bool
  | .array a, .array b => a.same b
  | .nullable a, .nullable b => a.same b
  | .object a, .object b => ClassRef.same a b
  | .integer a, .integer b => a == b
  | .void, .void | .bool, .bool | .single, .single | .double, .double | .string, .string
  | .table, .table | .function, .function | .any, .any => true
  | _, _ => false

/-- The diagnostic text of a type. -/
def dump (t : HostType) : String := "HostType(" ++ t.name ++ ")"

/-- The classes a type mentions. -/
def handles : HostType → List Handle
  | .object c => [c.ref.handle]
  | .array t | .nullable t => t.handles
  | _ => []

instance : Holds HostType := ⟨HostType.handles⟩

end HostType

end ScriptHost
