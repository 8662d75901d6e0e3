import ScriptHost.World.Borrow

/-!
# Display text

The text of a value under the script's string conversion. Shared things show their address unless
they have a text of their own: a proxy shows what it reaches, a travelling failure its message.
-/

set_option autoImplicit false

namespace ScriptHost

/-- The text of a handle's address. -/
def Handle.address (h : Handle) : String := "0x" ++ Text.Dump.hex h.index

namespace World

/-- The text a class gives to one of its objects; none if it has no display, or if the object cannot
be read now. -/
def classDisplay? (w : World) (o : ObjectRef) : Option String :=
  match (w.cls o.cls).display with
  | some parts => (w.readableSlots? o).map (HostClass.displayText parts)
  | none => none

/-- The text of a proxy: always a text, whatever the state of its target. -/
def proxyDisplay (w : World) (p : Proxy) : String :=
  -- A proxy that was disposed says so whether its object lives or not.
  if p.target.isNone then "[disposed " ++ p.typeName ++ "]"
  else match w.targetOf? p with
    | some (.object o) => (w.classDisplay? o).getD ("[" ++ p.typeName ++ "]")
    | some (.type _) => "[type " ++ p.typeName ++ "]"
    | none => "[released " ++ p.typeName ++ "]"

/-- The text of a userdata value. -/
def userdataDisplay (w : World) (u : UserdataRef) : String :=
  match w.userdatum u with
  | .proxy p => w.proxyDisplay p
  | .carrier e => e.message
  | .foreign _ (some (_, display)) => display
  | .foreign n none => n ++ ": " ++ u.handle.address

/-- The text of a value. -/
def display (w : World) : ScriptValue → String
  | .nil => "nil"
  | .boolean b => Text.Dump.bool b
  | .integer i => toString i.toInt
  | .number x => ScriptValue.numberText x
  | .string s => s
  | .function f => "function: " ++ f.handle.address
  | .table t => "table: " ++ t.handle.address
  | .userdata u => w.userdataDisplay u

/-- Whether the proxy's object is gone. -/
def isReleased (w : World) (p : Proxy) : Bool := p.target.isSome && (w.targetOf? p).isNone

/-- Equality of two userdata values of their own accord; none if one has no say. -/
def userdataEquals? (w : World) (a b : UserdataRef) : Option Bool :=
  match w.userdatum a, w.userdatum b with
  | .proxy p, .proxy q => match w.targetOf? p, w.targetOf? q with
    | some s, some t => some (s.same t)
    -- Proxies that reach nothing are unequal, even if they named the same object.
    | _, _ => some false
  | .foreign _ (some (s, _)), .foreign _ (some (t, _)) => some (s == t)
  | _, _ => none

/-- **Equality** as script sees it: raw equality, or distinct userdata that call themselves equal.
-/
def equals (w : World) (a b : ScriptValue) : Bool :=
  a.rawEquals b || match a, b with
    | .userdata x, .userdata y => (w.userdataEquals? x y).getD false
    | _, _ => false

end World

end ScriptHost
