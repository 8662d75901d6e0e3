import ScriptHost.Run.Result

/-!
# Operations on values, variables and tables
-/

set_option autoImplicit false

namespace ScriptHost

open Act

namespace World

/-- All that can be asked of a script value. -/
def valueReport (w : World) (v : ScriptValue) : ValueReport where
  value := w.view v
  kind := v.kind
  raisedMessage := v.raisedMessage
  isNil := v.isNil
  truthy := v.isTruthy
  asBoolean := v.asBoolean?
  asInteger := v.asInteger?
  asNumber := v.asNumber?
  asString := v.asString?
  isTable := v.asTable?.isSome
  isFunction := v.asFunction?.isSome
  isUserdata := v.asUserdata?.isSome
  natural := w.naturalType v
  lookup := (MemberKey.ofValue? v).map MemberKey.display

/-- Size, length and contents of a table. -/
def tableReport (w : World) (t : TableRef) : TableReport where
  count := (w.table t).count
  len := (w.table t).length
  sequence := w.views (w.table t).sequence
  all := w.view (.table t)

/-- The state a body runs in. -/
def stateReport (w : World) (s : Scope) : StateReport where
  inCoroutine := s.inCoroutine
  depth := w.frames.length
  traceback := w.traceback
  maxDepth := w.maxDepth

end World

/-- The text of a diagnostic dump. -/
def DumpSubject.text (s : Scope) : DumpSubject → Act Failure String
  | .var name => do
    let v ← readVar name
    look fun w => w.dumpStored v
  | .host e => do
    let v ← e.eval s
    look fun w => w.dumpHost v
  | .type t => do
    let t ← t.eval
    pure t.dump
  | .context => look fun w => w.dumpContext s.inCoroutine
  | .bridge => look fun w => w.dumpBridge
  | .proxy e => do
    let v ← e.eval s
    look fun w => match v.asUserdata?.bind w.proxy? with
      | some p => w.dumpProxy p
      | none => Text.Dump.option none
  | .config c => pure (World.dumpConfig c)
  | .function e => do
    let v ← e.eval s
    look fun w => Text.Dump.option (v.asFunction?.map w.dumpFunction)
  | .userdata e => do
    let v ← e.eval s
    look fun w => Text.Dump.option (v.asUserdata?.map w.dumpUserdata)
  | .value e => do
    let v ← e.eval s
    look fun w => w.dumpScript v

/-- Runs an operation on values or variables. -/
def ValueAction.run (s : Scope) : ValueAction → Act Failure Result
  | .logScript e => do
    let v ← e.eval s
    let r ← replyScript v
    logging r
  | .logHost e => do
    let v ← e.eval s
    logging (.host v)
  | .bind e => do
    let v ← e.eval s
    replyScript v
  | .bindHost e => do
    let v ← e.eval s
    pure (.host v)
  | .drop name => do
    let known ← look fun w => (w.var? name).isSome
    change fun w => { w with vars := w.vars.filter fun p => p.1 != name }
    pure (.told (.bool known))
  | .arguments => match s.side with
    | .top => replyScripts []
    | .script args => replyScripts args
    | .host _ _ args => replyWith (.host (.array args)) fun w => .hosts (w.hostViews args)
  | .state => reply fun w => .state (w.stateReport s)
  | .describe e => do
    let v ← e.eval s
    replyWith (.script v) fun w => .value (w.valueReport v)
  | .rawEquals a b => do
    let x ← a.eval s
    let y ← holding (handles x) (b.eval s)
    pure (.told (.bool (x.rawEquals y)))
  | .equals a b => do
    let x ← a.eval s
    let y ← holding (handles x) (b.eval s)
    reply fun w => .bool (w.equals x y)
  | .display e => do
    let v ← e.eval s
    reply fun w => .diagnostic (w.display v)
  | .userdata name tagged => do
    let u ← newUserdata (.foreign name tagged)
    replyScript (.userdata u)
  | .dump subject => do
    let t ← subject.text s
    pure (.told (.diagnostic t))

/-- The table of an operand. -/
def tableOperand (s : Scope) (e : ScriptExpr) : Act Failure TableRef := do
  match (← e.eval s).asTable? with
  | some t => pure t
  | none => throw (.failed (.host "not a table"))

/-- Runs an operation on a table. -/
def TableAction.run (s : Scope) : TableAction → Act Failure Result
  | .get table key => do
    let t ← tableOperand s table
    let k ← holding [t.handle] (key.eval s)
    let v ← look fun w => (w.table t).get k
    replyScript v
  | .set table key value => do
    let t ← tableOperand s table
    let k ← holding [t.handle] (key.eval s)
    let v ← holding (t.handle :: handles k) (value.eval s)
    throwing (setEntry t k v)
    reply fun w => .written (w.table t).count (w.table t).length
  | .describe table => do
    let t ← tableOperand s table
    reply fun w => .table (w.tableReport t)
  | .contains table key => do
    let t ← tableOperand s table
    let k ← holding [t.handle] (key.eval s)
    reply fun w => .bool ((w.table t).contains k)

end ScriptHost
