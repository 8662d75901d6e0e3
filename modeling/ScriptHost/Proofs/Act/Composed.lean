import ScriptHost.Proofs.Act.Alike
import ScriptHost.Proofs.Act.Known
import ScriptHost.Proofs.Act.Made
import ScriptHost.Proofs.Conversion.HasType
import ScriptHost.Proofs.Conversion.Sequence

/-!
# Composed acts

All acts of a session are put together from a few primitive ones: looking, making things, changing
things, and brackets around other acts. `Composed l b K m Q` says that `m` is put together in this
way by programs within the license `l`, running inside a coroutine if `b` says so and where at least
`K` is known, and that what it gives satisfies `Q`. More may be known by then, so `Q` is told what.
What it fails with names known things too.

The constructors are the only place where the primitive acts are listed. What holds of them holds
of all programs: a property of acts is proved by induction on `Composed`, once, and
`ScriptHost.Proofs.Act.Program` shows that everything a program does is composed.

A primitive act that runs code of the host or writes to an object asks for `b = false`, which the
guard has checked, or for a license to reach host code directly. Bodies are not reached directly,
only by calls: a call begins in the state of the running context or, with such a license, outside
every coroutine (`License.Enters`). Whatever values code of the host is started with have the types
that it declared, no table is made to store nil, and what is stored names known things only. What is
made fits what it is made for: `instantiate` checks the payload, and `lookUp` is how a method becomes a
function.
-/

set_option autoImplicit false

namespace ScriptHost

namespace Event

/-- Whether code of the host was started: a body, a getter, a setter or a constructor. -/
def isHostCode : Event → Bool
  | .body _ _ _ _ | .getter _ _ _ | .setter _ _ _ _ | .constructor _ => true
  | _ => false

/-- Whether the body of a host function or of a method was started. -/
def isBody : Event → Bool
  | .body _ _ _ _ => true
  | _ => false

end Event

/-- How a call may begin: in the state of the running context, or outside every coroutine through an
entry point of the host. -/
def License.Enters (l : License) (b b' : Bool) : Prop := b' = b ∨ b' = false ∧ l.direct = true

namespace License.Enters

variable {l : License} {b b' : Bool}

theorem self (b : Bool) : l.Enters b b := .inl rfl

theorem eq_or_direct (h : l.Enters b b') : b' = b ∨ l.direct = true := h.imp_right And.right

/-- Where the guard lets something pass, the way to host code is open. -/
theorem open? (h : l.Enters b b') (hb : b' = false) : b = false ∨ l.direct = true :=
  h.eq_or_direct.imp_left fun heq => heq.symm.trans hb

end License.Enters

namespace Act

open World (Unseeing)

/-- A value is as promised, and an error names known things only. -/
def Promised {ε α : Type} [Names ε] (P : Set Mention → α → Prop) (K : Set Mention) :
    Except ε α → Prop
  | .ok a => P K a
  | .error e => Known K e

/-- What a lookup comes to: a method that was found alone becomes a function. -/
def methodOr (via : BindingRef) (t : Target) (other : List Member → Act HostFailure ScriptValue) :
    List Member → Act HostFailure ScriptValue
  | [.method m] => methodFunction via t m
  | ms => other ms

/-- Anything but a single method is left to what handles the other cases. -/
theorem methodOr_of_ne {via : BindingRef} {t : Target}
    {other : List Member → Act HostFailure ScriptValue} {ms : List Member}
    (h : ∀ m, ms ≠ [.method m]) : methodOr via t other ms = other ms := by
  unfold methodOr
  split
  · next m => exact absurd rfl (h m)
  · rfl

/-- Acts put together from primitive ones, and what they give. -/
inductive Composed (l : License) : Bool → Set Mention → {ε α : Type} → [Names ε] → Act ε α →
    (Set Mention → α → Prop) → Prop where
  | pure {b : Bool} {K : Set Mention} {ε α : Type} [Names ε] {Q : Set Mention → α → Prop} (a : α)
      (h : Q K a) : Composed l b K (pure a : Act ε α) Q
  | throw {b : Bool} {K : Set Mention} {ε α : Type} [Names ε] {Q : Set Mention → α → Prop} (e : ε)
      (hk : Known K e) : Composed l b K (throw e : Act ε α) Q
  | bind {b : Bool} {K : Set Mention} {ε α β : Type} [Names ε] {m : Act ε α} {f : α → Act ε β}
      {P : Set Mention → α → Prop} {Q : Set Mention → β → Prop} (hm : Composed l b K m P)
      (hf : ∀ {K'}, K ⊆ K' → ∀ a, P K' a → Composed l b K' (f a) Q) : Composed l b K (m >>= f) Q
  | attempt {b : Bool} {K : Set Mention} {ε ε' α : Type} [Names ε] [Names ε'] {m : Act ε α}
      {P : Set Mention → α → Prop} (h : Composed l b K m P) :
      Composed l b K (attempt m : Act ε' (Except ε α)) (Promised P)
  | mapError {b : Bool} {K : Set Mention} {ε ε' α : Type} [Names ε] [Names ε'] {m : Act ε α}
      {P : Set Mention → α → Prop} (f : World → ε → ε') (hf : Unseeing f)
      (hk : ∀ {K'} (w : World) e, w.Known K' → Known K' e → Known K' (f w e))
      (h : Composed l b K m P) : Composed l b K (mapError f m) P
  | weaken {b : Bool} {K : Set Mention} {ε α : Type} [Names ε] {m : Act ε α}
      {P Q : Set Mention → α → Prop} (h : Composed l b K m P)
      (hPQ : ∀ {K'}, K ⊆ K' → ∀ a, P K' a → Q K' a) : Composed l b K m Q
  | holding {b : Bool} {K : Set Mention} {ε α : Type} [Names ε] {m : Act ε α}
      {P : Set Mention → α → Prop} (hs : List Handle) (h : Composed l b K m P) :
      Composed l b K (holding hs m) P
  /-- What was looked at may be known from what is stored. -/
  | look {b : Bool} {K : Set Mention} {ε α : Type} [Names ε] (f : World → α)
      {Q : Set Mention → α → Prop} (hf : l.seeing = true ∨ Unseeing f)
      (hQ : ∀ {K'}, K ⊆ K' → ∀ w : World, w.Within l → w.Known K' → Q K' (f w)) :
      Composed l b K (look f : Act ε α) Q
  | failWith {b : Bool} {K : Set Mention} {ε α : Type} [Names ε] {Q : Set Mention → α → Prop}
      (f : World → ε) (hf : Unseeing f) (hk : ∀ w, Known K (f w)) :
      Composed l b K (failWith f : Act ε α) Q
  | newTable {b : Bool} {K : Set Mention} {ε : Type} [Names ε] (t : Table) (h : t.NoNil)
      (hk : Known K t) : Composed l b K (newTable t : Act ε TableRef) fun _ _ => True
  /-- An entry is written, or the key is no key. -/
  | writeTable {b : Bool} {K : Set Mention} {ε : Type} [Names ε] (r : TableRef)
      (key value : ScriptValue) (fail : KeyFault → Act ε Unit) (hkey : Known K key)
      (hvalue : Known K value) (h : ∀ fault, Composed l b K (fail fault) fun _ _ => True) :
      Composed l b K (look (fun w => w.table r) >>= fun t => match t.set key value with
        | .ok t => setTable r t
        | .error fault => fail fault) fun _ _ => True
  | newFunction {b : Bool} {K : Set Mention} {ε : Type} [Names ε] (f : Function)
      (h : f.code.Within l) (hk : Known K f) (hcode : f.code.isMethod = false) :
      Composed l b K (newFunction f : Act ε FunctionRef) fun _ _ => True
  /-- Members are looked up. A method that is found alone becomes a function that runs it on the target
  it was found on. -/
  | lookUp {b : Bool} {K : Set Mention} (via : BindingRef) (t : Target) (k : MemberKey)
      (ht : Known K t) (other : List Member → Act HostFailure ScriptValue)
      (h : ∀ {K'}, K ⊆ K' → ∀ ms, (∀ m ∈ ms, m.Within l) → Known K' ms →
        Composed l b K' (other ms) Known) :
      Composed l b K (look (fun w => (w.binding via).resolve (w.cls t.cls) k t.isInstance) >>=
        methodOr via t other) Known
  | newCarrier {b : Bool} {K : Set Mention} {ε : Type} [Names ε] (e : HostFailure)
      (hk : Known K e) : Composed l b K (newUserdata (.carrier e) : Act ε UserdataRef) Known
  | newForeign {b : Bool} {K : Set Mention} {ε : Type} [Names ε] (n : String)
      (t : Option (String × String)) :
      Composed l b K (newUserdata (.foreign n t) : Act ε UserdataRef) Known
  | newProxy {b : Bool} {K : Set Mention} {ε : Type} [Names ε] (via : BindingRef) (t : Target)
      (hk : Known K t) : Composed l b K (newProxy via t : Act ε UserdataRef) Known
  /-- What was just made is known, under the class it was made for. -/
  | newObject {b : Bool} {K : Set Mention} {ε : Type} [Names ε] (c : ClassRef) (s : Slots)
      (hk : Known K s) :
      Composed l b K (newObject ⟨c, .slots s, .free⟩ : Act ε ObjectRef) fun K' o =>
        o.cls = c ∧ Known K' o
  | instantiate {b : Bool} {K : Set Mention} (c : ClassRef) (p : Payload) (hk : Known K p) :
      Composed l b K (instantiate c p) Known
  | newClass {b : Bool} {K : Set Mention} {ε : Type} [Names ε] (c : HostClass) (h : c.Within l)
      (hk : Known K c) (hc : c.Declared) :
      Composed l b K (newClass c : Act ε ClassRef) fun _ _ => True
  | newCoroutine {b : Bool} {K : Set Mention} {ε : Type} [Names ε] (f : FunctionRef) :
      Composed l b K (newCoroutine ⟨f, .suspended⟩ : Act ε CoroutineRef) fun _ _ => True
  | newBinding {b : Bool} {K : Set Mention} {ε : Type} [Names ε] (c : Config)
      (h : l.seeing = true) :
      Composed l b K (newBinding (.ofConfig c) : Act ε BindingRef) fun _ _ => True
  | dispose {b : Bool} {K : Set Mention} {ε : Type} [Names ε] (u : UserdataRef) :
      Composed l b K (dispose u : Act ε Unit) fun _ _ => True
  | writeSlot {b : Bool} {K : Set Mention} (o : ObjectRef) (slot : String) (v : HostValue)
      (h : b = false ∨ l.direct = true) (hk : Known K v) :
      Composed l b K (writeSlot o slot v) fun _ _ => True
  | whileBorrowed {b : Bool} {K : Set Mention} {ε α : Type} [Names ε] {m : Act ε α}
      {P : Set Mention → α → Prop} (o : ObjectRef) (mutably : Bool) (fail : HostFailure → ε)
      (hk : ∀ e, Known K (fail (.binding e))) (h : Composed l b K m P) :
      Composed l b K (whileBorrowed o mutably fail m) P
  | proxyFor {b : Bool} {K : Set Mention} {ε : Type} [Names ε] (via : BindingRef) (o : ObjectRef)
      (hk : Known K o) : Composed l b K (proxyFor via o : Act ε UserdataRef) Known
  /-- Code of the host is started, with what it declared. -/
  | started {b : Bool} {K : Set Mention} {ε : Type} [Names ε] (e : Event)
      (he : e.isHostCode = true) (ht : e.Typed)
      (h : b = false ∨ l.direct = true ∧ e.isBody = false) :
      Composed l b K (note e : Act ε Unit) fun _ _ => True
  /-- The guard lets nothing pass inside a coroutine. -/
  | guard {b : Bool} {K : Set Mention} (inCoroutine : Bool) (name : String)
      (h : inCoroutine = b ∨ l.direct = true) :
      Composed l b K (guard inCoroutine name) fun _ _ => inCoroutine = false
  | log {b : Bool} {K : Set Mention} {ε : Type} [Names ε] (a : Answer) :
      Composed l b K (log a : Act ε Unit) fun _ _ => True
  | assign {b : Bool} {K : Set Mention} {ε : Type} [Names ε] (name : String) (s : Stored)
      (h : s.Within l) (hk : Known K s) :
      Composed l b K (assign name s : Act ε Unit) fun _ _ => True
  | drop {b : Bool} {K : Set Mention} {ε : Type} [Names ε] (name : String) :
      Composed l b K (change fun w => { w with vars := w.vars.filter fun p => p.1 != name } :
        Act ε Unit) fun _ _ => True
  /-- A call, in the state in which it begins. -/
  | framed {b b' : Bool} {K : Set Mention} {ε α : Type} [Names ε] {m : Act ε α}
      {P : Set Mention → α → Prop} (f : FunctionRef) (hb : l.Enters b b')
      (h : Composed l b' K m P) : Composed l b K (framed b' f m) P
  /-- What a coroutine runs, it runs inside a coroutine. -/
  | resume {b : Bool} {K : Set Mention} (call : Caller) (c : CoroutineRef)
      (args : List ScriptValue) (h : ∀ f, Composed l true K (call true f args) Known) :
      Composed l b K (resume call c args) Known

namespace Composed

variable {l : License} {b : Bool} {K : Set Mention} {ε ε' α β : Type} [Names ε]

/-- One act after another, whatever the first one gives. -/
theorem andThen {m : Act ε α} {f : α → Act ε β} {P : Set Mention → α → Prop}
    {Q : Set Mention → β → Prop} (hm : Composed l b K m P)
    (hf : ∀ {K'}, K ⊆ K' → ∀ a, Composed l b K' (f a) Q) : Composed l b K (m >>= f) Q :=
  hm.bind fun hK a _ => hf hK a

/-- A look that tells nothing of what is stored. -/
theorem seen {f : World → α} (hf : Unseeing f) :
    Composed l b K (Act.look f : Act ε α) fun _ _ => True :=
  .look f (.inr hf) fun _ _ _ _ => trivial

/-- Giving something of which nothing is to be known. -/
theorem give (a : α) : Composed l b K (Pure.pure a : Act ε α) fun _ _ => True :=
  .pure a trivial

/-- Failing with something that names nothing. -/
theorem fails {e : ε} {Q : Set Mention → α → Prop} (h : Names.named e = []) :
    Composed l b K (MonadExcept.throw e : Act ε α) Q :=
  .throw e (.of_named_eq_nil h)

theorem ofExcept {r : Except ε α} {Q : Set Mention → α → Prop} (h : Promised Q K r) :
    Composed l b K (Act.ofExcept r) Q := by
  cases r with
  | ok a => exact .pure a h
  | error e => exact .throw e h

/-- Getters, setters and constructors may be reached directly. -/
theorem accessed (e : Event) (he : e.isHostCode = true) (hbody : e.isBody = false) (ht : e.Typed)
    (open? : b = false ∨ l.direct = true) :
    Composed l b K (note e : Act ε Unit) fun _ _ => True :=
  .started e he ht (open?.imp_right fun hl => ⟨hl, hbody⟩)

theorem raise {v : ScriptValue} (hv : Known K v) {Q : Set Mention → α → Prop} :
    Composed l b K (Act.raise v : Act ScriptError α) Q :=
  .failWith _ (.ofRest fun _ _ => rfl) fun _ => hv

theorem runtimeError (message : String) {Q : Set Mention → α → Prop} :
    Composed l b K (Act.runtimeError message : Act ScriptError α) Q :=
  raise (.of_named_eq_nil rfl)

theorem setEntry (t : TableRef) {key value : ScriptValue} (hkey : Known K key)
    (hvalue : Known K value) : Composed l b K (Act.setEntry t key value) fun _ _ => True :=
  .writeTable t key value _ hkey hvalue fun _ => .fails rfl

end Composed

end Act

end ScriptHost
