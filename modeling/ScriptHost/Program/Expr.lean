import ScriptHost.Value.HostValue
import ScriptHost.Value.HostType

/-!
# Expressions

Operations take their operands as expressions: literals, fresh tables, session variables, and the
arguments and receiver of the body that runs. There are expressions for script values, for host
values and for types, and each has its form for lists.
-/

set_option autoImplicit false

namespace ScriptHost

mutual

/-- An expression for a script value. -/
inductive ScriptExpr where
  | nil
  | boolean (b : Bool)
  | string (s : String)
  | integer (i : Int64)
  | number (x : Binary64)
  /-- A fresh table holding a sequence. -/
  | sequence (items : ScriptItems)
  /-- A fresh table with entries written in order. -/
  | map (entries : List (ScriptExpr × ScriptExpr))
  /-- A session variable; of a list, the item at the position. -/
  | var (name : String) (position : Nat)
  /-- An argument of the running body, counted from zero. -/
  | arg (position : Nat)
  /-- The receiver of the running method. -/
  | receiver
  | global (name : String)

/-- An expression for a list of script values. -/
inductive ScriptItems where
  | list (items : List ScriptExpr)
  /-- All items of a list variable. -/
  | all (var : String)
  /-- All arguments of the running body. -/
  | allArgs
  /-- The integers from one. -/
  | range (n : Nat)

end

mutual

/-- An expression for a host value. -/
inductive HostExpr where
  | null
  | bool (b : Bool)
  | string (s : String)
  | int (i : Int64)
  | uint (u : UInt64)
  | float (x : Binary64)
  | array (items : HostItems)
  | script (e : ScriptExpr)
  | var (name : String) (position : Nat)
  | arg (position : Nat)
  | receiver

/-- An expression for a list of host values. -/
inductive HostItems where
  | list (items : List HostExpr)
  | allArgs
  | range (n : Nat)
  /-- Script values that pass through. -/
  | script (items : ScriptItems)

end

/-- An expression for a host type. Classes are named by variables. -/
inductive TypeExpr where
  | plain (t : HostType)
  | array (element : TypeExpr)
  | nullable (inner : TypeExpr)
  | object (var : String)

end ScriptHost
