import ScriptHost.World.Act

/-!
# From host values to script values

This direction never fails. Arrays become tables, classes fresh proxies, and an object the one
proxy that its binding has for it: the binding's cache keeps proxies by the address of their
object without keeping them alive. The cached proxy is used as long as it lives, was not disposed
and reaches this very object; otherwise a new one takes its place.
-/

set_option autoImplicit false

namespace ScriptHost

namespace ProxyCache

/-- From this size on the cache is cleaned when its size is a power of two. -/
def cleaningSize : Nat := 64

def isPowerOfTwo (n : Nat) : Bool := n == 1 <<< n.log2

/-- The cache before an insertion: proxies that are gone are dropped now and then. -/
def clean (c : ProxyCache) (live : UserdataRef → Bool) : ProxyCache :=
  if cleaningSize ≤ c.length && isPowerOfTwo c.length then c.filter fun e => live e.2 else c

/-- The cache with one entry written. -/
def put (c : ProxyCache) (address : Nat) (u : UserdataRef) : ProxyCache :=
  (address, u) :: c.filter fun e => e.1 != address

/-- The entry of an address. -/
def find? (c : ProxyCache) (address : Nat) : Option UserdataRef :=
  (List.find? (fun e => e.1 == address) c).map Prod.snd

end ProxyCache

namespace World

/-- The usable proxy of an object in a binding's cache. -/
def cachedProxy? (w : World) (b : BindingRef) (o : ObjectRef) : Option UserdataRef :=
  match ProxyCache.find? (w.binding b).cache (w.layout o.ref) with
  | some u =>
    let reaches := match w.proxyTarget? u with
      | some t => t.same (.object o)
      | none => false
    if w.alive u.handle && reaches then some u else none
  | none => none

/-- The number of cached proxies that are alive. -/
def liveCount (w : World) (b : BindingRef) : Nat :=
  ((w.binding b).cache.filter fun e => w.alive e.2.handle).length

end World

namespace Act

variable {ε : Type}

/-- A fresh proxy. -/
def newProxy (b : BindingRef) (t : Target) : Act ε UserdataRef :=
  newUserdata (.proxy ⟨some t, b, t.cls.name⟩)

/-- Puts a proxy into its binding's cache. -/
def cacheProxy (b : BindingRef) (o : ObjectRef) (u : UserdataRef) : Act ε Unit := do
  let c ← look fun w =>
    ((w.binding b).cache.clean fun u => w.alive u.handle).put (w.layout o.ref) u
  setCache b c

/-- The proxy of an object: the cached one, or a new one that is cached. -/
def proxyFor (b : BindingRef) (o : ObjectRef) : Act ε UserdataRef := do
  match ← look fun w => w.cachedProxy? b o with
  | some u => do
    note (.wrapped b o u)
    pure u
  | none => do
    let u ← newProxy b (.object o)
    -- The entry may take the place of one whose object had the same address.
    cacheProxy b o u
    note (.wrapped b o u)
    pure u

/-- A natural number of sixty-four bits as a script value: an integer, or the nearest float. -/
def ofUInt64 (u : UInt64) : ScriptValue :=
  if u.toNat < 0x8000000000000000 then .integer (Int64.ofNat u.toNat)
  else .number (Binary64.ofInt u.toNat)

mutual

/-- **Conversion to script** under a binding. -/
def toScript (b : BindingRef) : HostValue → Act ε ScriptValue
  | .null => pure .nil
  | .bool x => pure (.boolean x)
  | .int i => pure (.integer i)
  | .uint u => pure (ofUInt64 u)
  | .float x => pure (.number x)
  | .string s => pure (.string s)
  | .array items => do
    let vs ← toScriptEach b items (HostValue.heldAll items)
    let t ← newTable (.ofSequence vs)
    pure (.table t)
  | .object o => do
    let u ← proxyFor b o
    pure (.userdata u)
  | .cls c => do
    let u ← newProxy b (.type c)
    pure (.userdata u)
  | .script v => pure v

/-- Values in order, with what they hold. What is still to be converted and what has been converted
stay alive. -/
def toScriptEach (b : BindingRef) : List HostValue → List Handle → Act ε (List ScriptValue)
  | [], _ => pure []
  | x :: xs, pending => do
    let v ← holding pending (toScript b x)
    -- What is pending begins with what this value held; the value is done.
    let rest := pending.drop (HostValue.held x).length
    let vs ← holding (handles v) (toScriptEach b xs rest)
    pure (v :: vs)

end

/-- Values in order. -/
def toScriptAll (b : BindingRef) (xs : List HostValue) : Act ε (List ScriptValue) :=
  toScriptEach b xs (HostValue.heldAll xs)

end Act

end ScriptHost
