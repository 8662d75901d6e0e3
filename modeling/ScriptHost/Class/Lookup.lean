import ScriptHost.Class.Info
import ScriptHost.Class.Visibility

/-!
# Lookup of members

A string names members; a number addresses indexed properties; no other value is a lookup key. A
lookup gives all members that match and are visible, overloads together and in declaration order.
-/

set_option autoImplicit false

namespace ScriptHost

/-- What script may look up. -/
inductive MemberKey where
  | name (s : String)
  | index (x : Binary64)
  deriving DecidableEq

namespace MemberKey

def ofValue? : ScriptValue → Option MemberKey
  | .string s => some (.name s)
  | .integer i => some (.index (Binary64.ofInt i.toInt))
  | .number x => some (.index x)
  | _ => none

/-- An integer brought into the range of sixty-four bits. -/
def clamp (n : Int) : Int := max (-0x8000000000000000) (min n 0x7fffffffffffffff)

/-- The key as diagnostics show it: an integral number as an integer. -/
def display : MemberKey → String
  | .name s => s
  | .index x => match x.toInt? with
    | some n => toString (clamp n)
    | none => Decimal.positional x

end MemberKey

/-- The members that match a key and are visible, in declaration order. -/
def Visibility.resolve (v : Visibility) (c : HostClass) (k : MemberKey) : List Member :=
  (match k with
    | .name s => c.membersNamed s
    | .index _ => c.indexers).filter fun m => v.admits m.isStatic m.isPublic

end ScriptHost
