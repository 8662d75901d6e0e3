import ScriptHost.Value.Script

/-!
# Tables

A table is a finite map from slots to values. Several keys can denote one slot: an integral float
denotes the slot of the integer it equals. The entry keeps the key it was last written under, and
nil is never stored: writing nil removes the entry.
-/

set_option autoImplicit false

namespace ScriptHost

/-- What a key denotes. -/
inductive SlotKey where
  | boolean (b : Bool)
  | integer (i : Int64)
  | float (x : Binary64)
  | string (s : String)
  | shared (h : Handle)
  deriving DecidableEq

/-- Why a value is no key. -/
inductive KeyFault where
  | nil
  | nan
  deriving DecidableEq

def KeyFault.message : KeyFault → String
  | .nil => "table index is nil"
  | .nan => "table index is NaN"

/-- The slot a key denotes. An integral float within the range of integers denotes the integer's
slot; `-0` is the integer zero. -/
def SlotKey.ofValue : ScriptValue → Except KeyFault SlotKey
  | .nil => .error .nil
  | .boolean b => .ok (.boolean b)
  | .integer i => .ok (.integer i)
  | .number x =>
    if x.isNaN then .error .nan
    -- A float beyond the integers is a key of its own, integral or not.
    else match x.toInt64? with
      | some i => .ok (.integer i)
      | none => .ok (.float x)
  | .string s => .ok (.string s)
  | .function f => .ok (.shared f.handle)
  | .table t => .ok (.shared t.handle)
  | .userdata u => .ok (.shared u.handle)

/-- One entry: the slot, the key it was last written under, and the value. -/
structure Entry where
  slot : SlotKey
  key : ScriptValue
  value : ScriptValue

/-- The position in a sequence that an entry stands at, counted from one, with its value. -/
def Entry.position? (e : Entry) : Option (Nat × ScriptValue) :=
  match e.slot with
  | .integer i => if 0 < i.toInt then some (i.toInt.toNat, e.value) else none
  | _ => none

/-- A table's entries. No two have the same slot and no value is nil. -/
structure Table where
  entries : List Entry

namespace Table

def empty : Table := ⟨[]⟩

instance : Inhabited Table := ⟨empty⟩

instance : Holds Table := ⟨fun t => t.entries.flatMap fun e => handles e.key ++ handles e.value⟩

/-- The entry of a slot. -/
def find? (t : Table) (s : SlotKey) : Option Entry := t.entries.find? fun e => e.slot == s

/-- The value of a slot, nil if it has none. -/
def slotValue (t : Table) (s : SlotKey) : ScriptValue := ((t.find? s).map Entry.value).getD .nil

/-- Reading. What can never be a key reads as nil. -/
def get (t : Table) (key : ScriptValue) : ScriptValue :=
  match SlotKey.ofValue key with
  | .ok s => t.slotValue s
  | .error _ => .nil

/-- The entries without a slot. -/
def erase (t : Table) (s : SlotKey) : Table := ⟨t.entries.filter fun e => e.slot != s⟩

/-- The entries with one slot written. -/
def put (t : Table) (s : SlotKey) (key value : ScriptValue) : Table :=
  ⟨⟨s, key, value⟩ :: (t.erase s).entries⟩

/-- Writing. Writing nil removes the entry; nil and what is not a number are no keys. -/
def set (t : Table) (key value : ScriptValue) : Except KeyFault Table :=
  (SlotKey.ofValue key).map fun s => if value.isNil then t.erase s else t.put s key value

def contains (t : Table) (key : ScriptValue) : Bool := !(t.get key).isNil

/-- The slot of the sequence position `n`, counted from one. -/
def position (n : Nat) : SlotKey := .integer (Int64.ofNat n)

/-- The entry of the `n`-th value of a sequence; nil leaves its position empty. -/
def sequenceItem? (value : ScriptValue) (n : Nat) : Option Entry :=
  if value.isNil then none else some ⟨position n, .integer (Int64.ofNat n), value⟩

/-- The table with the given values at `1`, `2` and so on. -/
def ofSequence (values : List ScriptValue) : Table :=
  ⟨(values.zipIdx 1).filterMap fun p => sequenceItem? p.1 p.2⟩

/-- The positions from one on that are present, in order, with their values. -/
def positions (t : Table) : List (Nat × ScriptValue) :=
  (t.entries.filterMap Entry.position?).mergeSort fun a b => a.1 ≤ b.1

/-- The values at `i`, `i + 1` and so on up to the first gap. -/
def consecutive : Nat → List (Nat × ScriptValue) → List ScriptValue
  | _, [] => []
  | i, (n, v) :: rest => if n = i then v :: consecutive (i + 1) rest else []

/-- The values at `1` and following up to the first empty position. -/
def sequence (t : Table) : List ScriptValue := consecutive 1 t.positions

/-- The length of the sequence part. -/
def length (t : Table) : Nat := t.sequence.length

/-- The keys as written, with their values. -/
def pairs (t : Table) : List (ScriptValue × ScriptValue) := t.entries.map fun e => (e.key, e.value)

def count (t : Table) : Nat := t.entries.length

end Table

end ScriptHost
