import ScriptHost.Class.Member
import ScriptHost.Error.Basic
import ScriptHost.Hash.Xxh64
import ScriptHost.Text.Blank

/-!
# Class metadata

A class is built once from its declarations and never changes. Members keep their order; beside them
stand the positions of each name and of the indexed properties, so that a lookup need not go through
all members. Building checks the names: none is blank, and two members share a name only if both
are methods, which are then overloads.
-/

set_option autoImplicit false

namespace ScriptHost

/-- Where names and indexed properties stand in the list of members. -/
structure MemberIndex where
  byName : List (String × List Nat)
  indexers : List Nat
  deriving DecidableEq

namespace MemberIndex

def empty : MemberIndex := ⟨[], []⟩

/-- The positions of a name, in order. -/
def positions (x : MemberIndex) (name : String) : List Nat :=
  ((x.byName.find? fun p => p.1 == name).map Prod.snd).getD []

/-- The positions with one more for a name. -/
def addName (name : String) (i : Nat) : List (String × List Nat) → List (String × List Nat)
  | [] => [(name, [i])]
  | (n, ps) :: rest => if n = name then (n, ps ++ [i]) :: rest else (n, ps) :: addName name i rest

/-- The index with one more member. -/
def add (x : MemberIndex) (i : Nat) (m : Member) : MemberIndex where
  byName := addName m.name i x.byName
  indexers := if m.isIndexer then x.indexers ++ [i] else x.indexers

end MemberIndex

/-- An immutable description of a class. -/
structure HostClass where
  name : String
  holds : PayloadType
  members : List Member
  index : MemberIndex
  constructor : Option Slots
  display : Option (List DisplayPart)

namespace HostClass

instance : Inhabited HostClass := ⟨⟨"", .slots, [], .empty, none, none⟩⟩

/-- The marker that sets hashes of class names apart from hashes of other names. -/
def idSeed : UInt64 := 0x2fac10b63a6cc57c

/-- The stable identity of a class name. -/
def idOf (name : String) : UInt64 := Xxh64.hash idSeed name.toUTF8.toList

/-- The members named `name`, in declaration order. -/
def membersNamed (c : HostClass) (name : String) : List Member :=
  (c.index.positions name).filterMap fun i => c.members[i]?

/-- The indexed properties, in declaration order. -/
def indexers (c : HostClass) : List Member := c.index.indexers.filterMap fun i => c.members[i]?

instance : Holds HostClass where
  handles c := handles c.members ++ handles (c.constructor.getD [])

/-! ### Building -/

/-- Two members may share a name when both are methods. -/
def mayShareName (a b : Member) : Bool := a.isMethod && b.isMethod

/-- Whether a member clashes with one of those at the positions. -/
def clashes (all : List Member) (m : Member) (positions : List Nat) : Bool :=
  positions.any fun j => match all[j]? with
    | some other => !mayShareName other m
    | none => false

/-- The index of the members from position `i` on, or the first fault among them. -/
def indexFrom (cls : String) (all : List Member) :
    List Member → Nat → MemberIndex → Except DeclarationError MemberIndex
  | [], _, x => .ok x
  | m :: rest, i, x =>
    if Text.isBlank m.name then .error (.invalidName m.name)
    -- Only the members before this one stand in the index.
    else if clashes all m (x.positions m.name) then .error (.duplicateMember cls m.name)
    else indexFrom cls all rest (i + 1) (x.add i m)

/-- **Building a class** from its members. The name of the class is checked first, then the members
in order. -/
def build (name : String) (members : List Member) (constructor : Option Slots)
    (display : Option (List DisplayPart)) : Except DeclarationError HostClass :=
  if Text.isBlank name then .error (.invalidName name)
  else (indexFrom name members members 0 .empty).map fun x =>
    ⟨name, .slots, members, x, constructor, display⟩

/-! ### Display -/

/-- The text of a slot's value inside a display. -/
def slotText : HostValue → String
  | .null => "null"
  | .bool b => Text.Dump.bool b
  | .int i => toString i.toInt
  | .uint u => toString u.toNat
  | .float x => Decimal.positional x
  | .string s => s
  | _ => "?"

/-- The text of an object with the given slots. -/
def displayText (parts : List DisplayPart) (s : Slots) : String :=
  String.join <| parts.map fun
    | .text t => t
    | .slot n => slotText (s.read n)

end HostClass

end ScriptHost
