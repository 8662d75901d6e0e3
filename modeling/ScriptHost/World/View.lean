import ScriptHost.Convert.Natural
import ScriptHost.World.Dump

/-!
# Making views

A view is made by walking through the value. Tables get numbers in the order in which they are met,
depth first and keys before values, and the items of one list share the numbering. Each table is
entered only once, so the number of tables bounds how deep the walk goes. A script value inside a
host value is walked on its own.
-/

set_option autoImplicit false

namespace ScriptHost

/-- The place of a key among the kinds of keys. -/
def ScriptValue.keyRank : ScriptValue → Nat
  | .nil => 0
  | .boolean _ => 1
  | .integer _ => 2
  | .number _ => 3
  | .string _ => 4
  | .function _ => 5
  | .table _ => 6
  | .userdata _ => 7

/-- The tables met so far, the first one first. -/
abbrev Walk := StateM (List TableRef)

namespace World

/-- Whether a key comes strictly before another: by kind, then by value or name. -/
def keyBefore (w : World) (a b : ScriptValue) : Bool :=
  match a, b with
  | .boolean x, .boolean y => !x && y
  | .integer x, .integer y => decide (x.toInt < y.toInt)
  | .number x, .number y => decide (x.scaled < y.scaled)
  | .string x, .string y => decide (x < y)
  | .function x, .function y => decide ((w.function x).name < (w.function y).name)
  | .userdata x, .userdata y => decide ((w.userdatum x).typeName < (w.userdatum y).typeName)
  | a, b => decide (a.keyRank < b.keyRank)

/-- The entries of a table in the order of their keys. -/
def sortedPairs (w : World) (t : Table) : List (ScriptValue × ScriptValue) :=
  t.pairs.mergeSort fun a b => !w.keyBefore b.1 a.1

/-- What is special about a userdata value. -/
def specialOf (w : World) (u : UserdataRef) : UserdataTrait :=
  match w.userdatum u with
  | .foreign _ _ => .none
  | .carrier e => .carrier e
  | .proxy p => .proxy <| match w.targetOf? p with
    | some (.type _) => .type
    | some (.object _) => .instance_
    | none => .nothing

/-- The view of a value that is no table. -/
def leafView (w : World) : ScriptValue → View
  | .nil | .table _ => .nil
  | .boolean b => .boolean b
  | .integer i => .integer i
  | .number x => .number x
  | .string s => .string s
  | .function f => .function (w.function f).name (w.function f).origin
  | .userdata u => .userdata (w.userdatum u).typeName (w.userdataDisplay u) (w.specialOf u)

/-- The view of a value, entering at most so many tables within each other. -/
def walkWithin (w : World) : Nat → ScriptValue → Walk View
  | 0, v => pure (w.leafView v)
  | n + 1, v => match v with
    | .table t => do
      let seen ← get
      match seen.idxOf? t with
      | some i => pure (.again i)
      | none => do
        -- Numbered before its entries are, so that it is known inside itself.
        set (seen ++ [t])
        let entries := w.table t
        let pairs ← (w.sortedPairs entries).mapM fun p => do
          let k ← walkWithin w n p.1
          let v ← walkWithin w n p.2
          pure (k, v)
        pure (.table seen.length entries.length pairs)
    | v => pure (w.leafView v)

/-- The view of a value within a walk. -/
def walk (w : World) (v : ScriptValue) : Walk View := walkWithin w (w.tables.size + 1) v

/-! ### Whole views -/

def view (w : World) (v : ScriptValue) : View := ((w.walk v).run []).run.1

def views (w : World) (vs : List ScriptValue) : List View := ((vs.mapM w.walk).run []).run.1

mutual

/-- The view of a host value inside the slots of an object. -/
def innerView (w : World) : HostValue → HostView
  | .null => .null
  | .bool b => .bool b
  | .int i => .int i
  | .uint u => .uint u
  | .float x => .float x
  | .string s => .string s
  | .array items => .array (innerViews w items)
  | .object o => .inner o.cls.name
  | .cls c => .cls c.name
  | .script v => .script (w.view v)

def innerViews (w : World) : List HostValue → List HostView
  | [] => []
  | x :: xs => innerView w x :: innerViews w xs

end

/-- The view of an object's slots. -/
def slotsView (w : World) (o : ObjectRef) : SlotsView :=
  (w.readableSlots? o).map fun s => s.map fun p => (p.1, w.innerView p.2)

mutual

/-- The view of a host value. -/
def hostView (w : World) : HostValue → HostView
  | .array items => .array (hostViews w items)
  | .object o => .object o.cls.name (w.slotsView o)
  | v => w.innerView v

def hostViews (w : World) : List HostValue → List HostView
  | [] => []
  | x :: xs => hostView w x :: hostViews w xs

end

/-- The view of a script error. -/
def raisedView (w : World) (e : ScriptError) : FailureView :=
  .raised (w.view e.value) e.message e.traceback

/-- The view of a host failure. -/
def failedView (w : World) (e : HostFailure) : FailureView :=
  .failed e e.message (e.raised?.map w.view)

end World

end ScriptHost
