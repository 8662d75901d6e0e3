import ScriptHost.Run.Scope

/-!
# Evaluation of operands
-/

set_option autoImplicit false

namespace ScriptHost

open Act

mutual

/-- The script value of an expression. -/
def ScriptExpr.eval (s : Scope) : ScriptExpr → Act Failure ScriptValue
  | .nil => pure .nil
  | .boolean b => pure (.boolean b)
  | .string t => pure (.string t)
  | .integer i => pure (.integer i)
  | .number x => pure (.number x)
  | .sequence items => do
    let vs ← items.eval s
    let t ← newTable (.ofSequence vs)
    pure (.table t)
  | .map entries => do
    let t ← newTable .empty
    holding [t.handle] (ScriptExpr.evalEntries s t entries)
    pure (.table t)
  | .var name position => do
    let v ← readVar name
    pure (v.asScript position)
  | .arg i => match s.side with
    | .top => pure .nil
    | .script args => pure ((args[i]?).getD .nil)
    | .host via _ args => toScript via ((args[i]?).getD .null)
  | .receiver => match s.side with
    | .host via (some o) _ => toScript via (.object o)
    | _ => pure .nil
  | .global name => look fun w => (w.table w.globals).get (.string name)

/-- Writes the entries of a map expression in order. -/
def ScriptExpr.evalEntries (s : Scope) (t : TableRef) :
    List (ScriptExpr × ScriptExpr) → Act Failure Unit
  | [] => pure ()
  | (k, v) :: rest => do
    let key ← k.eval s
    let value ← holding (handles key) (v.eval s)
    throwing (setEntry t key value)
    ScriptExpr.evalEntries s t rest

/-- The script values of a list expression. -/
def ScriptItems.eval (s : Scope) : ScriptItems → Act Failure (List ScriptValue)
  | .list items => ScriptItems.evalList s items
  | .all name => do
    let v ← readVar name
    pure v.asScripts
  | .allArgs => match s.side with
    | .top => pure []
    | .script args => pure args
    | .host via _ args => toScriptAll via args
  | .range n => pure ((firstIntegers n).map .integer)

/-- The script values of expressions in order. -/
def ScriptItems.evalList (s : Scope) : List ScriptExpr → Act Failure (List ScriptValue)
  | [] => pure []
  | e :: es => do
    let v ← e.eval s
    let vs ← holding (handles v) (ScriptItems.evalList s es)
    pure (v :: vs)

end

mutual

/-- The host value of an expression. -/
def HostExpr.eval (s : Scope) : HostExpr → Act Failure HostValue
  | .null => pure .null
  | .bool b => pure (.bool b)
  | .string t => pure (.string t)
  | .int i => pure (.int i)
  | .uint u => pure (.uint u)
  | .float x => pure (.float x)
  | .array items => do
    let vs ← items.eval s
    pure (.array vs)
  | .script e => do
    let v ← e.eval s
    pure (.script v)
  | .var name position => do
    let v ← readVar name
    pure (v.asHost position)
  | .arg i => match s.side with
    | .top => pure .null
    | .script args => pure (.script ((args[i]?).getD .nil))
    | .host _ _ args => pure ((args[i]?).getD .null)
  | .receiver => match s.receiver? with
    | some o => pure (.object o)
    | none => pure .null

/-- The host values of a list expression. -/
def HostItems.eval (s : Scope) : HostItems → Act Failure (List HostValue)
  | .list items => HostItems.evalList s items
  | .allArgs => match s.side with
    | .top => pure []
    | .script args => pure (args.map .script)
    | .host _ _ args => pure args
  | .range n => pure ((firstIntegers n).map .int)
  | .script items => do
    let vs ← items.eval s
    pure (vs.map .script)

/-- The host values of expressions in order. -/
def HostItems.evalList (s : Scope) : List HostExpr → Act Failure (List HostValue)
  | [] => pure []
  | e :: es => do
    let v ← e.eval s
    let vs ← holding (handles v) (HostItems.evalList s es)
    pure (v :: vs)

end

/-- The type of an expression. -/
def TypeExpr.eval : TypeExpr → Act Failure HostType
  | .plain t => pure t
  | .array e => do
    let t ← e.eval
    pure (.array t)
  | .nullable e => do
    let t ← e.eval
    pure (.nullable t)
  | .object name => do
    let c ← classVar name
    pure (.object c)

/-- The types of expressions in order. -/
def TypeExpr.evalAll : List TypeExpr → Act Failure (List HostType)
  | [] => pure []
  | e :: es => do
    let t ← e.eval
    let ts ← TypeExpr.evalAll es
    pure (t :: ts)

/-- Slots with evaluated values. -/
def HostExpr.evalSlots (s : Scope) :
    List (String × HostExpr) → Act Failure (List (String × HostValue))
  | [] => pure []
  | (name, e) :: rest => do
    let v ← e.eval s
    let vs ← holding (handles v) (HostExpr.evalSlots s rest)
    pure ((name, v) :: vs)

end ScriptHost
