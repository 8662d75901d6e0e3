import ScriptHost.Convert.ToHost
import ScriptHost.Convert.ToScript

/-!
# Access through proxies

Reading through a proxy gives the value of the one permitted member that the key denotes, a function
if it is a method, and nil if there is no such member. Writing assigns to that member. Both work on
what the proxy reaches now: a disposed proxy and one whose object is gone fail every access.

A function read through a proxy names the object as weakly as the proxy does.
-/

set_option autoImplicit false

namespace ScriptHost

namespace Act

/-- What a proxy names, unless it was disposed. -/
def namedTarget (p : Proxy) : Act HostFailure Target :=
  match p.target with
  | some t => pure t
  | none => throw (.binding (.disposed p.typeName))

/-- What a target reaches, unless its object is gone. -/
def reachTarget (t : Target) : Act HostFailure Target := do
  match ← look fun w => w.reach? t with
  | some t => pure t
  | none => throw (.binding (.objectReleased t.cls.name))

/-- A function that runs a method on what the proxy names. -/
def methodFunction (via : BindingRef) (t : Target) (m : Method) : Act HostFailure ScriptValue := do
  let f ← newFunction ⟨t.cls.name ++ "." ++ m.name, .host, .method via t m⟩
  pure (.function f)

/-- **Reading** through a proxy. -/
def readProxy (p : Proxy) (key : ScriptValue) : Act HostFailure ScriptValue := do
  let t ← namedTarget p
  let t ← reachTarget t
  match MemberKey.ofValue? key with
  -- What can name no member is missing like any other.
  | none => pure .nil
  | some k =>
    match ← look fun w => (w.binding p.via).resolve (w.cls t.cls) k t.isInstance with
    | [.method m] => methodFunction p.via t m
    | [m] => do
      match ← readMember p.via t.cls t.receiver? m with
      | some v => toScript p.via v
      | none => pure .nil
    -- No member, or a method with overloads, among which nothing chooses.
    | _ => pure .nil

/-- **Writing** through a proxy. -/
def writeProxy (p : Proxy) (key v : ScriptValue) : Act HostFailure Unit := do
  let t ← namedTarget p
  let t ← reachTarget t
  match MemberKey.ofValue? key with
  | none => throw (.binding (.memberNotFound t.cls.name ("<" ++ key.kind.name ++ " key>")))
  | some k => assignKey (toHost p.via) p.via t.cls t.receiver? k v

/-- Detaches a proxy from its target for good. -/
def dispose {ε : Type} (u : UserdataRef) : Act ε Unit := do
  match ← look fun w => w.proxy? u with
  | some p => setUserdata u (.proxy { p with target := none })
  | none => pure ()

end Act

end ScriptHost
