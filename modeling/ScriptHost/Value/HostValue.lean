import ScriptHost.Value.Script

/-!
# Host values

A value on the host side of the boundary: scalars, arrays, instances of classes, classes, and
script values that pass through unconverted.
-/

set_option autoImplicit false

namespace ScriptHost

/-- A value on the host side. -/
inductive HostValue where
  | null
  | bool (b : Bool)
  | int (i : Int64)
  | uint (u : UInt64)
  | float (x : Binary64)
  | string (s : String)
  | array (items : List HostValue)
  | object (o : ObjectRef)
  /-- A class, standing for its static members. -/
  | cls (c : ClassRef)
  /-- A script value that passes through. -/
  | script (v : ScriptValue)
  deriving Inhabited

namespace HostValue

def isNull : HostValue → Bool
  | .null => true
  | _ => false

def asBool? : HostValue → Option Bool
  | .bool b => some b
  | _ => none

/-- A signed integer, or an unsigned one that fits. -/
def asInt64? : HostValue → Option Int64
  | .int i => some i
  | .uint u => if u.toNat < 0x8000000000000000 then some (Int64.ofNat u.toNat) else none
  | _ => none

/-- An unsigned integer, or a signed one that is not negative. -/
def asUInt64? : HostValue → Option UInt64
  | .uint u => some u
  | .int i => if 0 ≤ i.toInt then some (UInt64.ofNat i.toInt.toNat) else none
  | _ => none

/-- A float, the nearest one for an integer. -/
def asFloat? : HostValue → Option Binary64
  | .float x => some x
  | .int i => some (Binary64.ofInt i.toInt)
  | .uint u => some (Binary64.ofInt u.toNat)
  | _ => none

def asString? : HostValue → Option String
  | .string s => some s
  | _ => none

def arrayLength? : HostValue → Option Nat
  | .array items => some items.length
  | _ => none

def isObject : HostValue → Bool
  | .object _ => true
  | _ => false

def isScript : HostValue → Bool
  | .script _ => true
  | _ => false

mutual

/-- Equality: scalars of one kind by value, objects and classes by identity, script values raw. -/
def equals : HostValue → HostValue → Bool
  | .null, .null => true
  | .bool a, .bool b => a == b
  | .int a, .int b => a == b
  | .uint a, .uint b => a == b
  | .float a, .float b => a.equals b
  | .string a, .string b => a == b
  | .array a, .array b => equalsAll a b
  | .object a, .object b => a.same b
  | .cls a, .cls b => a.same b
  | .script a, .script b => a.rawEquals b
  | _, _ => false

/-- Equality of arrays: equal lengths and equal elements in order. -/
def equalsAll : List HostValue → List HostValue → Bool
  | [], [] => true
  | a :: as, b :: bs => equals a b && equalsAll as bs
  | _, _ => false

end

mutual

/-- The handles a host value keeps alive. An object keeps its class too. -/
def held : HostValue → List Handle
  | .array items => heldAll items
  | .object o => handles o
  | .cls c => handles c
  | .script v => handles v
  | _ => []

/-- The handles an array's elements keep alive. -/
def heldAll : List HostValue → List Handle
  | [] => []
  | x :: xs => held x ++ heldAll xs

end

instance : Holds HostValue := ⟨held⟩

end HostValue

/-- Named slots of an object, sorted by name, each name once. -/
abbrev Slots := List (String × HostValue)

namespace Slots

/-- The value of a slot; a missing slot reads as null. -/
def read (s : Slots) (name : String) : HostValue :=
  ((s.find? fun p => p.1 == name).map Prod.snd).getD .null

/-- The slots with one written. -/
def write : Slots → String → HostValue → Slots
  | [], name, v => [(name, v)]
  | (n, w) :: rest, name, v =>
    if name < n then (name, v) :: (n, w) :: rest
    else if name = n then (name, v) :: rest
    else (n, w) :: write rest name v

/-- Slots from assignments in order; a later one wins. -/
def ofList (ps : List (String × HostValue)) : Slots := ps.foldl (fun s p => s.write p.1 p.2) []

end Slots

end ScriptHost
