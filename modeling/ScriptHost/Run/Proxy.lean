import ScriptHost.Run.Result

/-!
# Operations on proxies, bindings and policies
-/

set_option autoImplicit false

namespace ScriptHost

open Act

/-- The proxy of an operand. -/
def proxyOperand (s : Scope) (e : ScriptExpr) : Act Failure UserdataRef := do
  let v ← e.eval s
  match v.asUserdata? with
  | some u => match ← look fun w => (w.proxy? u).isSome with
    | true => pure u
    | false => throw (.failed (.host "not a proxy"))
  | none => throw (.failed (.host "not a proxy"))

/-- A proxy as it stands. -/
def proxyState (u : UserdataRef) : Act Failure Proxy := do
  match ← look fun w => w.proxy? u with
  | some p => pure p
  | none => throw (.failed (.host "not a proxy"))

/-- All that can be asked of a proxy. -/
def World.proxyReport (w : World) (u : UserdataRef) (p : Proxy) : ProxyReport where
  disposed := p.target.isNone
  released := w.isReleased p
  value := w.view (.userdata u)
  targetClass := (w.targetOf? p).map fun t => t.cls.name
  hasReceiver := (w.targetOf? p).map fun t => t.isInstance

/-- Whether two proxies reach the same; null if one reaches nothing. -/
def World.sameTarget (w : World) (p q : Proxy) : Answer :=
  match w.targetOf? p, w.targetOf? q with
  | some s, some t => .bool (s.same t)
  | _, _ => .null

/-- Runs an operation on proxies, bindings or policies. -/
def ProxyAction.run (s : Scope) : ProxyAction → Act Failure Result
  | .wrap object => do
    let o ← objectOrReceiver s object
    let via ← look fun w => w.bridge
    let v ← toScript via (.object o)
    replyScript v
  | .wrapClass cls => do
    let c ← classVar cls
    let via ← look fun w => w.bridge
    let u ← newProxy via (.type c)
    replyScript (.userdata u)
  | .create subject from? => do
    let t ← match subject with
      | .cls name => do
        let c ← classVar name
        pure (Target.type c)
      | .object name => do
        let o ← objectOrReceiver s name
        pure (Target.object o)
    let via ← bindingVar s from?
    let u ← newProxy via t
    replyScript (.userdata u)
  | .describe proxy => do
    let u ← proxyOperand s proxy
    let p ← proxyState u
    reply fun w => .proxy (w.proxyReport u p)
  | .sameTarget a b => do
    let x ← proxyOperand s a
    let y ← holding [x.handle] (proxyOperand s b)
    let p ← proxyState x
    let q ← proxyState y
    reply fun w => w.sameTarget p q
  | .dispose proxy => do
    let u ← proxyOperand s proxy
    Act.dispose u
    pure .nothing
  | .read proxy key => do
    let u ← proxyOperand s proxy
    let k ← holding [u.handle] (key.eval s)
    let p ← proxyState u
    let v ← holding (u.handle :: handles k) (failing (readProxy p k))
    replyScript v
  | .write proxy key value => do
    let u ← proxyOperand s proxy
    let k ← holding [u.handle] (key.eval s)
    let v ← holding (u.handle :: handles k) (value.eval s)
    let p ← proxyState u
    holding (u.handle :: handles k ++ handles v) (failing (writeProxy p k v))
    pure .nothing
  | .binding config => do
    let b := Binding.ofConfig config
    let r ← newBinding b
    pure (.leaving (.binding r)
      (.visibility b.onType.bits (b.onInstance.map Visibility.bits)))
  | .liveCount of? => do
    let b ← bindingVar s of?
    reply fun w => .nat (w.liveCount b)
  | .cached object of? => do
    let o ← objectOrReceiver s object
    let b ← bindingVar s of?
    reply fun w => .bool (w.cachedProxy? b o).isSome
  | .resolveWith cls key visibility => do
    let c ← classVar cls
    let k ← key.eval s
    reply fun w => match MemberKey.ofValue? k with
      | some k => .members (visibility.resolve (w.cls c) k)
      | none => .null
  | .resolve cls key onInstance of? => do
    let c ← classVar cls
    let k ← key.eval s
    let b ← bindingVar s of?
    reply fun w => match MemberKey.ofValue? k with
      | some k => .members ((w.binding b).resolve (w.cls c) k onInstance)
      | none => .null
  | .decide cls policy => do
    let c ← classVar cls
    reply fun w => .decisions ((w.cls c).members.map fun m =>
      (m.name, (Policy.ofSpec policy).permits (w.cls c) m))
  | .sharedPolicy => pure (.told (.bool true))

end ScriptHost
