import ScriptHost.Convert.Integer
import ScriptHost.Convert.Natural
import ScriptHost.Proxy.Member
import ScriptHost.World.Dump

/-!
# From script values to host values

The declared type drives the conversion. It recurses on the type: an array converts the sequence
part of a table element by element, a nullable type its inner type. A table becomes an object by
assigning its entries to a freshly constructed instance, in the order of their keys. The members'
types mention only classes that were built before, so the number of classes bounds how deep
objects can nest; `buildUpTo` counts it down.
-/

set_option autoImplicit false

namespace ScriptHost

namespace Act

variable {α : Type}

/-- The value's kind has no coercion to the type. -/
def mismatch (v : ScriptValue) (t : HostType) : Act ConversionError α :=
  failWith fun w => .typeMismatch v.kind (w.naturalType v) t.name

/-- The elements in order from the given position on. The first that does not convert is named. -/
def convertItems (convert : ScriptValue → Act ConversionError HostValue)
    (target element : HostType) :
    List ScriptValue → Nat → Act ConversionError (List HostValue)
  | [], _ => pure []
  | v :: vs, i => do
    let h ← mapError (fun w _ => .arrayElement target.name i v.kind (w.naturalType v) element.name)
      (convert v)
    let hs ← convertItems convert target element vs (i + 1)
    pure (h :: hs)

/-- How a table becomes an instance of a class. -/
abbrev Builder := ClassRef → TableRef → Act ConversionError HostValue

/-- A value other than nil as an instance of a class. -/
def convertObject (build : Builder) (c : ClassRef) (v : ScriptValue) :
    Act ConversionError HostValue :=
  match v with
  | .userdata u => do
    match ← look fun w => w.proxyTarget? u with
    | some (.object o) =>
      if o.cls.same c then pure (.object o) else throw (.classMismatch c.name o.cls.name)
    -- A proxy of a class, one that reaches nothing any more, or no proxy.
    | _ => mismatch v (.object c)
  | .table t => build c t
  | _ => mismatch v (.object c)

/-- Conversion by type. nil is null for the types that accept it and fits no other. -/
def convertWith (build : Builder) : HostType → ScriptValue → Act ConversionError HostValue
  -- First of all, so that no other case has to deal with nil.
  | t, .nil => if t.admitsNull then pure .null else throw (.nilToNonNullable t.name)
  | .nullable inner, v => convertWith build inner v
  | .void, _ => pure .null
  | .any, v => look fun w => w.naturalValue v
  | .bool, .boolean b => pure (.bool b)
  | .single, v => match v.asNumber? with
    | some x =>
      if x.fitsSingle then pure (.float x)
      else throw (.outOfRange (Decimal.positional x) HostType.single.name)
    | none => mismatch v .single
  | .double, v => match v.asNumber? with
    | some x => pure (.float x)
    | none => mismatch v .double
  | .integer t, v => match v with
    | .integer i => ofExcept (t.fit i.toInt)
    | .number x => ofExcept (t.fitFloat x)
    | v => mismatch v (.integer t)
  | .string, .string s => pure (.string s)
  | .array element, v => match v with
    | .table t => do
      let vs ← look fun w => (w.table t).sequence
      let hs ← convertItems (convertWith build element) (.array element) element vs 1
      pure (.array hs)
    | v => mismatch v (.array element)
  | .object c, v => convertObject build c v
  | .table, .table t => pure (.script (.table t))
  | .function, .function f => pure (.script (.function f))
  | t, v => mismatch v t

/-- A table's entries under strings, in the order of the keys. -/
def stringEntries (t : Table) : List (String × ScriptValue) :=
  (t.pairs.filterMap fun p => p.1.asString?.map fun s => (s, p.2)).mergeSort fun a b => !(b.1 < a.1)

/-- A key of a table that is no string. -/
def otherKey? (t : Table) : Option ScriptValue :=
  (t.pairs.find? fun p => p.1.asString?.isNone).map Prod.fst

/-- Assigns entries one after another, through the path of an assignment to a proxy. -/
def assignEntries (convert : Converter) (via : BindingRef) (c : ClassRef) (o : ObjectRef) :
    List (String × ScriptValue) → Act ConversionError Unit
  | [] => pure ()
  | (k, v) :: rest => do
    mapError (fun _ e => .structuredField c.name k e.message)
      (assignKey convert via c (some o) (.name k) v)
    assignEntries convert via c o rest

/-- A fresh instance filled from a table. A key that is no string is refused before anything is
assigned. -/
def buildObject (convert : Converter) (via : BindingRef) (c : ClassRef) (t : TableRef) :
    Act ConversionError HostValue := do
  -- The class has to have a constructor whatever the table holds.
  let o ← construct c
  let entries ← look fun w => w.table t
  match otherKey? entries with
  | some k =>
    failWith fun w =>
      .structuredField c.name (w.dumpScript k) (k.kind.name ++ " keys are not supported")
  | none => do
    -- The object is in hand while it is filled.
    holding (handles o) (assignEntries convert via c o (stringEntries entries))
    pure (.object o)

/-- Building objects that nest at most so many classes deep. -/
def buildUpTo (via : BindingRef) : Nat → Builder
  -- Never asked: there are not as many classes as it would take.
  | 0 => fun c _ => throw (.missingConstructor c.name)
  | n + 1 => buildObject (convertWith (buildUpTo via n)) via

/-- **Conversion to host** under a binding. -/
def toHost (via : BindingRef) (t : HostType) (v : ScriptValue) : Act ConversionError HostValue := do
  let n ← look fun w => w.classes.size
  convertWith (buildUpTo via n) t v

end Act

end ScriptHost
