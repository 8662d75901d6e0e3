import ScriptHost.Error.Basic

/-!
# Views

A view shows a value as it stands at one moment, so that nothing later can change it. Tables are
numbered in the order in which they are met and shown in full only once, so a view of a cyclic
structure is finite.
-/

set_option autoImplicit false

namespace ScriptHost

/-- Where a function's code lives. -/
inductive Origin where
  | script
  | host
  deriving DecidableEq

/-- What a proxy reaches at the moment. -/
inductive Reach where
  | type
  | instance_
  | nothing
  deriving DecidableEq

/-- What is special about a userdata value. -/
inductive UserdataTrait where
  | none
  | proxy (reach : Reach)
  | carrier (error : HostFailure)

/-- A script value as it is shown. -/
inductive View where
  | nil
  | boolean (b : Bool)
  | integer (i : Int64)
  | number (x : Binary64)
  | string (s : String)
  | function (name : String) (origin : Origin)
  /-- A table met for the first time, with its number. -/
  | table (n len : Nat) (pairs : List (View × View))
  /-- A table met before. -/
  | again (n : Nat)
  | userdata (typeName display : String) (special : UserdataTrait)

/-- A host value as it is shown. -/
inductive HostView where
  | null
  | bool (b : Bool)
  | int (i : Int64)
  | uint (u : UInt64)
  | float (x : Binary64)
  | string (s : String)
  | array (items : List HostView)
  /-- An object with its slots; none if they cannot be read now. -/
  | object (cls : String) (slots : Option (List (String × HostView)))
  /-- An object inside the slots of another. -/
  | inner (cls : String)
  | cls (name : String)
  | script (v : View)

/-- The slots of an object; none if they cannot be read now. -/
abbrev SlotsView := Option (List (String × HostView))

end ScriptHost
