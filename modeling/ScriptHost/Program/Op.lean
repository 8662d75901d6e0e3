import ScriptHost.Program.Action

/-!
# Operations

A program is a list of operations. Most operations are actions; the others have bodies, which are
programs again: functions, host functions and methods keep their bodies for later, a conditional and
a borrow run theirs at once.
-/

set_option autoImplicit false

namespace ScriptHost

/-- What is done with an operation's result. -/
structure Disposition where
  /-- Where the result is stored on success. -/
  store : Option String
  /-- Where a failure is stored instead of failing. -/
  catchAs : Option String
  /-- Whether the result is logged. -/
  logged : Bool
  /-- Whether the result is withheld from the answer. -/
  quiet : Bool

/-- A part of a class's text: fixed, or the text of a slot. -/
inductive DisplayPart where
  | text (s : String)
  | slot (name : String)
  deriving DecidableEq

/-- One declaration of a class. `body` is the type of method bodies. A setter that refuses reports
the message instead of storing. -/
inductive Declaration (body : Type) where
  | field (name : String) (type : TypeExpr) (slot : String) (settable : Bool)
      (refusal : Option String)
  | property (name : String) (type : TypeExpr) (slot : String) (readable settable : Bool)
      (refusal : Option String)
  | indexer (name : String) (type : TypeExpr) (slot : String) (arity : Nat)
  | staticProperty (name : String) (type : TypeExpr) (value : HostExpr)
  | method (name : String) (params : List TypeExpr) (isStatic : Bool) (run : body)
  /-- Hides the member declared before. -/
  | nonPublic

/-- A class as it is described by a program. -/
structure ClassSpec (body : Type) where
  name : String
  declarations : List (Declaration body)
  /-- The initial slots of the default constructor, if there is one. -/
  constructor : Option (List (String × HostExpr))
  display : Option (List DisplayPart)

/-- Where a host function is registered. -/
inductive Registration where
  | none
  | global
  | table (e : ScriptExpr)

/-- One operation. -/
inductive Op where
  | act (d : Disposition) (a : Action)
  /-- Ends the running script body with script values. -/
  | giveScript (d : Disposition) (items : ScriptItems)
  /-- Ends the running host body with host values. -/
  | giveHost (d : Disposition) (items : HostItems)
  | branch (d : Disposition) (cond : ScriptExpr) (yes no : List Op)
  /-- Runs the body while the object is borrowed. -/
  | borrow (d : Disposition) (object : Option String) (mutably : Bool) (body : List Op)
  | function (d : Disposition) (name : String) (isHost isGlobal : Bool) (body : List Op)
  | hostFunction (d : Disposition) (name : String) (params : List TypeExpr)
      (registration : Registration) (body : List Op)
  | cls (d : Disposition) (spec : ClassSpec (List Op))

/-- A list of operations. -/
abbrev Program := List Op

end ScriptHost
