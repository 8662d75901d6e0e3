/-!
# Visibility

Which members a lookup may see: static or instance members, public or non-public ones. A member is
seen when both its scope and its visibility are admitted.
-/

set_option autoImplicit false

namespace ScriptHost

/-- What a lookup admits. -/
structure Visibility where
  statics : Bool
  instances : Bool
  publics : Bool
  nonPublics : Bool
  deriving DecidableEq

namespace Visibility

/-- The static public members: what script sees of a class. -/
def ofType : Visibility := ⟨true, false, true, false⟩

/-- The instance public members: what script sees of an object. -/
def ofInstance : Visibility := ⟨false, true, true, false⟩

/-- The same with non-public members on request. -/
def withNonPublic (v : Visibility) (wanted : Bool) : Visibility :=
  { v with nonPublics := v.nonPublics || wanted }

/-- Whether a member of the given scope and visibility is admitted. -/
def admits (v : Visibility) (isStatic isPublic : Bool) : Bool :=
  (if isStatic then v.statics else v.instances) && (if isPublic then v.publics else v.nonPublics)

/-- One bit for each of the four, the scope bits lowest. -/
def bits (v : Visibility) : Nat :=
  (if v.statics then 1 else 0) + (if v.instances then 2 else 0) + (if v.publics then 4 else 0) +
    (if v.nonPublics then 8 else 0)

/-- The flags that a number's lowest four bits stand for. -/
def ofBits (n : Nat) : Visibility := ⟨n.testBit 0, n.testBit 1, n.testBit 2, n.testBit 3⟩

/-- The diagnostic text: the admitted kinds, or `0x0`. -/
def dump (v : Visibility) : String :=
  let names :=
    (if v.statics then ["STATIC"] else []) ++ (if v.instances then ["INSTANCE"] else []) ++
      (if v.publics then ["PUBLIC"] else []) ++ (if v.nonPublics then ["NON_PUBLIC"] else [])
  "BindingFlags(" ++ (if names.isEmpty then "0x0" else String.intercalate " | " names) ++ ")"

end Visibility

end ScriptHost
