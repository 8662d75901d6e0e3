import ScriptHost.World.Basic

/-!
# Liveness

A thing lives as long as somebody holds it: a variable, the globals, an active call, a running
operation, or another thing that lives. Things that hold each other in a cycle never die.

`heldWithin n hs` follows holders backwards for at most `n` steps, all of one generation at once, so
that a thing with many ways to it is looked at once in each. A chain of holders that is longer than
the number of things goes round in a cycle, so `alive` need not look further than that.
-/

set_option autoImplicit false

namespace ScriptHost

namespace World

/-- What a thing keeps alive. -/
def contents (w : World) (h : Handle) : List Handle :=
  match h.kind with
  | .table => handles (w.tables.get? ⟨h.index⟩)
  | .function => handles (w.functions.get? ⟨h.index⟩)
  | .userdata => handles (w.userdata.get? ⟨h.index⟩)
  | .object => handles (w.objects.get? ⟨h.index⟩)
  | .cls => handles (w.classes.get? ⟨h.index⟩)
  | .coroutine => handles (w.coroutines.get? ⟨h.index⟩)
  | .binding => []

/-- All things ever made. -/
def things (w : World) : List Handle :=
  w.tables.refs.map Ref.handle ++ w.functions.refs.map Ref.handle ++
    w.userdata.refs.map Ref.handle ++ w.objects.refs.map Ref.handle ++
    w.classes.refs.map Ref.handle ++ w.coroutines.refs.map Ref.handle

/-- What is held from outside the stores. -/
def roots (w : World) : List Handle :=
  w.held ++ (w.vars.flatMap fun p => handles p.2) ++ w.frames.map Ref.handle ++ [w.globals.handle]

/-- Every thing with what it keeps alive. -/
def holdings (w : World) : List (Handle × List Handle) := w.things.map fun a => (a, w.contents a)

/-- Whoever holds one of these. -/
def holders (holdings : List (Handle × List Handle)) (hs : List Handle) : List Handle :=
  (holdings.filter fun p => p.2.any hs.contains).map Prod.fst

/-- One of these is held from outside, as far as `n` steps of holders show. -/
def heldWithin (roots : List Handle) (holdings : List (Handle × List Handle)) :
    Nat → List Handle → Bool
  | _, [] => false
  -- Whoever is still held after so many steps is held by itself.
  | 0, _ :: _ => true
  | n + 1, h :: hs =>
    (h :: hs).any roots.contains || heldWithin roots holdings n (holders holdings (h :: hs))

/-- **Alive**: somebody holds it. -/
def alive (w : World) (h : Handle) : Bool := heldWithin w.roots w.holdings w.things.length [h]

/-- The target a proxy reaches: a class always, an object while it is alive. -/
def reach? (w : World) : Target → Option Target
  | .type c => some (.type c)
  | .object o => if w.alive o.ref.handle then some (.object o) else none

/-- The target of a proxy, none once it is disposed or its object is gone. -/
def targetOf? (w : World) (p : Proxy) : Option Target := p.target.bind w.reach?

/-- The target of a userdata value that is a proxy. -/
def proxyTarget? (w : World) (u : UserdataRef) : Option Target := (w.proxy? u).bind w.targetOf?

end World

end ScriptHost
