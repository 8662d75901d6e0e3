import ScriptHost.Handle
import ScriptHost.Number.Decimal
import ScriptHost.Text.Quoted

/-!
# Script values

Scalars are plain values; tables, functions and host values are handles. `rawEquals` compares
scalars by value, where an integer and a float are compared as floats, and handles by identity.
-/

set_option autoImplicit false

namespace ScriptHost

/-- A value held by the interpreter. -/
inductive ScriptValue where
  | nil
  | boolean (b : Bool)
  | integer (i : Int64)
  | number (x : Binary64)
  | string (s : String)
  | function (f : FunctionRef)
  | table (t : TableRef)
  | userdata (u : UserdataRef)
  deriving DecidableEq, Inhabited

/-- The kinds of script values. Integers and floats are one kind. -/
inductive ValueKind where
  | nil
  | boolean
  | number
  | string
  | function
  | table
  | userdata
  deriving DecidableEq

namespace ValueKind

/-- The interpreter's name for the kind. -/
def name : ValueKind → String
  | .nil => "nil"
  | .boolean => "boolean"
  | .number => "number"
  | .string => "string"
  | .function => "function"
  | .table => "table"
  | .userdata => "userdata"

/-- The name as diagnostics write it. -/
def title : ValueKind → String
  | .nil => "Nil"
  | .boolean => "Boolean"
  | .number => "Number"
  | .string => "String"
  | .function => "Function"
  | .table => "Table"
  | .userdata => "UserData"

/-- What stands in place of an error message when a value of this kind is raised. -/
def placeholder (k : ValueKind) : String := "[" ++ k.title ++ "]"

end ValueKind

namespace ScriptValue

instance : Holds ScriptValue where
  handles
    | .function f => [f.handle]
    | .table t => [t.handle]
    | .userdata u => [u.handle]
    | _ => []

def kind : ScriptValue → ValueKind
  | .nil => .nil
  | .boolean _ => .boolean
  | .integer _ | .number _ => .number
  | .string _ => .string
  | .function _ => .function
  | .table _ => .table
  | .userdata _ => .userdata

def isNil : ScriptValue → Bool
  | .nil => true
  | _ => false

/-- Everything except nil and `false` counts as true. -/
def isTruthy : ScriptValue → Bool
  | .nil | .boolean false => false
  | _ => true

def asBoolean? : ScriptValue → Option Bool
  | .boolean b => some b
  | _ => none

/-- The integer of a number that is one exactly. -/
def asInteger? : ScriptValue → Option Int64
  | .integer i => some i
  | .number x => x.toInt64?
  | _ => none

/-- The float of a number, the nearest one for an integer. -/
def asNumber? : ScriptValue → Option Binary64
  | .integer i => some (Binary64.ofInt i.toInt)
  | .number x => some x
  | _ => none

def asString? : ScriptValue → Option String
  | .string s => some s
  | _ => none

def asFunction? : ScriptValue → Option FunctionRef
  | .function f => some f
  | _ => none

def asTable? : ScriptValue → Option TableRef
  | .table t => some t
  | _ => none

def asUserdata? : ScriptValue → Option UserdataRef
  | .userdata u => some u
  | _ => none

/-- **Raw equality**: scalars by value, shared things by identity. -/
def rawEquals : ScriptValue → ScriptValue → Bool
  | .nil, .nil => true
  | .boolean a, .boolean b => a == b
  | .integer a, .integer b => a == b
  | .number a, .number b => a.equals b
  -- Rounded to a float first: two integers may equal one float.
  | .integer a, .number b => (Binary64.ofInt a.toInt).equals b
  | .number a, .integer b => (Binary64.ofInt b.toInt).equals a
  | .string a, .string b => a == b
  | .function a, .function b => a == b
  | .table a, .table b => a == b
  | .userdata a, .userdata b => a == b
  | _, _ => false

/-- The message of a raised value: the string itself, or a placeholder naming its kind. -/
def raisedMessage : ScriptValue → String
  | .string s => s
  | v => v.kind.placeholder

/-- The text of a float under the script's own string conversion. -/
def numberText (x : Binary64) : String :=
  if x.isNaN then "nan"
  else if x.isIntegral && x.absBelow 1000000000000000 then Decimal.withPoint x
  else Decimal.positional x

end ScriptValue

end ScriptHost
