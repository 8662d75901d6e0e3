/-!
# Structured dumps

The diagnostic text of a composite value: a record with named fields, a tuple behind a constructor
name, a list in brackets, an optional value. A record may say that it has fields it does not show.
-/

set_option autoImplicit false

namespace ScriptHost.Text.Dump

/-- Fields as `name: text`. -/
def fields (fs : List (String × String)) : List String := fs.map fun f => f.1 ++ ": " ++ f.2

/-- `Name { a: x, b: y }`, or the bare name if there is nothing to show. -/
def record (name : String) (fs : List (String × String)) : String :=
  if fs.isEmpty then name
  else name ++ " \x7b " ++ String.intercalate ", " (fields fs) ++ " \x7d"

/-- `Name { a: x, .. }`: a record with fields that are not shown. -/
def openRecord (name : String) (fs : List (String × String)) : String :=
  name ++ " \x7b " ++ String.intercalate ", " (fields fs ++ [".."]) ++ " \x7d"

/-- `Name(x, y)`. -/
def tuple (name : String) (items : List String) : String :=
  name ++ "(" ++ String.intercalate ", " items ++ ")"

/-- `[x, y]`. -/
def list (items : List String) : String := "[" ++ String.intercalate ", " items ++ "]"

/-- `Some(x)` or `None`. -/
def option : Option String → String
  | some text => tuple "Some" [text]
  | none => "None"

/-- `true` or `false`. -/
def bool (b : Bool) : String := if b then "true" else "false"

/-- The digits of a number in base sixteen, without leading zeros. -/
def hex (n : Nat) : String := String.ofList (Nat.toDigits 16 n)

end ScriptHost.Text.Dump
