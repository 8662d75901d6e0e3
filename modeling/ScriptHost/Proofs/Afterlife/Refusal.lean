import ScriptHost.Proofs.Afterlife.Action
import ScriptHost.Proofs.Carrier
import ScriptHost.Proofs.Instants.Basic

/-!
# Operations that are refused

A proxy that reaches nothing refuses whoever reads or writes through it (`World.Refuses`). An
operation evaluates its operands first, so the world in which it reaches for the proxy is not the
one in which it began. That makes no difference: operands dispose of nothing
(`ScriptExpr.eval_keepsUserdata`), and what is dead stays dead while they are evaluated
(`ScriptExpr.eval_sparing`).

Main statement: `Scope.refused`, for all operations that read or write through a proxy, on the side
of the host and on the side of script.
-/

set_option autoImplicit false

namespace ScriptHost

open Act

/-! ### Operands dispose of nothing -/

namespace Act

variable {ε ε' α β : Type}

/-- Userdata that is there stays what it is. -/
def KeepsUserdata (m : Act ε α) : Prop :=
  ∀ w u x, w.userdata.get? u = some x → (m.outcome w).2.userdata.get? u = some x

namespace KeepsUserdata

/-- An act that leaves the store of userdata alone. -/
theorem of_eq {m : Act ε α} (h : ∀ w, (m.outcome w).2.userdata = w.userdata) : m.KeepsUserdata :=
  fun w _ _ hx => (h w).symm ▸ hx

theorem pure (a : α) : (Pure.pure a : Act ε α).KeepsUserdata := .of_eq fun _ => rfl

theorem throw (e : ε) : (MonadExcept.throw e : Act ε α).KeepsUserdata := .of_eq fun _ => rfl

theorem look (f : World → α) : (Act.look f : Act ε α).KeepsUserdata := .of_eq fun _ => rfl

/-- One act after another. -/
theorem bind {m : Act ε α} {f : α → Act ε β} (hm : m.KeepsUserdata)
    (hf : ∀ a, (f a).KeepsUserdata) : (m >>= f).KeepsUserdata := by
  intro w u x hx
  have hmid := hm w u x hx
  rcases hout : m.outcome w with ⟨e | a, w₁⟩ <;> rw [hout] at hmid
  · rw [outcome_bind_error hout]
    exact hmid
  · rw [outcome_bind_ok hout]
    exact hf a w₁ u x hmid

/-- Holding something changes no userdata. -/
theorem holding (hs : List Handle) {m : Act ε α} (hm : m.KeepsUserdata) :
    (Act.holding hs m).KeepsUserdata :=
  fun w => hm { w with held := hs ++ w.held }

/-- Nor does a look at the error. -/
theorem mapError (f : World → ε → ε') {m : Act ε α} (hm : m.KeepsUserdata) :
    (Act.mapError f m).KeepsUserdata := by
  intro w u x hx
  have hmid := hm w u x hx
  rw [outcome_mapError]
  rcases hout : m.outcome w with ⟨e | a, w₁⟩ <;> rw [hout] at hmid <;> exact hmid

/-- Nor does a new table. -/
theorem newTable (t : Table) : (Act.newTable t : Act ε TableRef).KeepsUserdata :=
  .of_eq fun _ => rfl

/-- Nor does an assignment to a table. -/
theorem setEntry (t : TableRef) (key value : ScriptValue) :
    (Act.setEntry t key value).KeepsUserdata := by
  refine .bind (.look _) fun entries => ?_
  split
  · exact .of_eq fun _ => rfl
  · exact .throw _

/-- Nor does a look at a variable. -/
theorem readVar (name : String) : (Act.readVar name).KeepsUserdata := by
  refine .bind (.look _) fun s? => ?_
  split
  · exact .pure _
  · exact .throw _

/-- A conversion makes proxies, and leaves those that are there. -/
theorem toScript (via : BindingRef) (v : HostValue) :
    (Act.toScript via v : Act ε ScriptValue).KeepsUserdata := by
  intro w u x hx
  obtain ⟨s, w', hout, hg⟩ := toScript_ok (ε := ε) via v w
  rw [hout]
  exact hg.userdata u x hx

/-- Values that go to script may make proxies, which come behind the userdata that were there. -/
theorem toScriptAll (via : BindingRef) (vs : List HostValue) :
    (Act.toScriptAll via vs : Act ε (List ScriptValue)).KeepsUserdata := by
  intro w u x hx
  obtain ⟨ss, w', hout, hg⟩ := toScriptEach_ok (ε := ε) via vs (HostValue.heldAll vs) w
  have hall : (Act.toScriptAll via vs : Act ε (List ScriptValue)).outcome w = (.ok ss, w') := hout
  rw [hall]
  exact hg.userdata u x hx

end KeepsUserdata

end Act

section Operands

variable (s : Scope)

mutual

/-- **Operands dispose of nothing.** -/
theorem ScriptExpr.eval_keepsUserdata : ∀ e : ScriptExpr, (e.eval s).KeepsUserdata
  | .nil | .boolean _ | .string _ | .integer _ | .number _ => by
    unfold ScriptExpr.eval
    exact .pure _
  | .sequence items => by
    unfold ScriptExpr.eval
    exact (ScriptItems.eval_keepsUserdata items).bind fun _ =>
      (KeepsUserdata.newTable _).bind fun _ => .pure _
  | .map entries => by
    unfold ScriptExpr.eval
    exact (KeepsUserdata.newTable _).bind fun t =>
      (KeepsUserdata.holding _ (ScriptExpr.evalEntries_keepsUserdata t entries)).bind fun _ =>
        .pure _
  | .var name position => by
    unfold ScriptExpr.eval
    exact (KeepsUserdata.readVar name).bind fun _ => .pure _
  | .arg i => by
    unfold ScriptExpr.eval
    split
    · exact .pure _
    · exact .pure _
    · exact .toScript _ _
  | .receiver => by
    unfold ScriptExpr.eval
    split
    · exact .toScript _ _
    · exact .pure _
  | .global name => by
    unfold ScriptExpr.eval
    exact .look _

/-- The same for the entries of a table. -/
theorem ScriptExpr.evalEntries_keepsUserdata (t : TableRef) :
    ∀ entries : List (ScriptExpr × ScriptExpr),
      (ScriptExpr.evalEntries s t entries).KeepsUserdata
  | [] => by
    unfold ScriptExpr.evalEntries
    exact .pure _
  | (k, v) :: rest => by
    unfold ScriptExpr.evalEntries
    refine (ScriptExpr.eval_keepsUserdata k).bind fun key => ?_
    refine (KeepsUserdata.holding _ (ScriptExpr.eval_keepsUserdata v)).bind fun value => ?_
    exact (KeepsUserdata.mapError _ (.setEntry t key value)).bind fun _ =>
      ScriptExpr.evalEntries_keepsUserdata t rest

/-- The same for some operands at once. -/
theorem ScriptItems.eval_keepsUserdata : ∀ items : ScriptItems, (items.eval s).KeepsUserdata
  | .list items => by
    unfold ScriptItems.eval
    exact ScriptItems.evalList_keepsUserdata items
  | .all name => by
    unfold ScriptItems.eval
    exact (KeepsUserdata.readVar name).bind fun _ => .pure _
  | .allArgs => by
    unfold ScriptItems.eval
    split
    · exact .pure _
    · exact .pure _
    · exact .toScriptAll _ _
  | .range n => by
    unfold ScriptItems.eval
    exact .pure _

/-- The same for operands one after another. -/
theorem ScriptItems.evalList_keepsUserdata :
    ∀ items : List ScriptExpr, (ScriptItems.evalList s items).KeepsUserdata
  | [] => by
    unfold ScriptItems.evalList
    exact .pure _
  | e :: es => by
    unfold ScriptItems.evalList
    exact (ScriptExpr.eval_keepsUserdata e).bind fun _ =>
      (KeepsUserdata.holding _ (ScriptItems.evalList_keepsUserdata es)).bind fun _ => .pure _

end

/-- The same for an operand that is to be a proxy. -/
theorem proxyOperand_keepsUserdata (e : ScriptExpr) : (proxyOperand s e).KeepsUserdata := by
  refine (e.eval_keepsUserdata s).bind fun v => ?_
  split
  · refine .bind (.look _) fun isProxy => ?_
    split
    · exact .pure _
    · exact .throw _
  · exact .throw _

end Operands

/-! ### While operands are evaluated -/

namespace World

variable {w₀ w w' : World} {u : UserdataRef} {p : Proxy} {e : AccessError}

/-- A world in the course of an operation that began in `w₀`: the proxy stands as it stood. -/
structure Meets (w₀ w : World) (u : UserdataRef) (p : Proxy) : Prop where
  since : w₀.Since w
  proxy : w.proxy? u = some p

/-- **An operand is evaluated.** What it gives is safe, and the proxy stands as it stood. -/
theorem Meets.operand {α : Type} {m : Act Failure α} {a : α} {Q : α → Prop} (h : w₀.Meets w u p)
    (hm : Sparing w₀ m Q) (hkeeps : m.KeepsUserdata) (hout : m.outcome w = (.ok a, w')) :
    w₀.Meets w' u p ∧ Q a := by
  obtain ⟨hsince, ha⟩ := hm.ok h.since hout
  -- That nothing is revived does not say that the proxy is not disposed of. Operands do not.
  have hproxy := hkeeps w u _ (proxy?_eq_some.mp h.proxy)
  rw [hout] at hproxy
  exact ⟨⟨hsince, proxy?_eq_some.mpr hproxy⟩, ha⟩

section Scope

variable {s : Scope} (hs : w₀.AllSafe s)
include hs

/-- The operand is found to be the proxy. -/
theorem Meets.proxyOperand (h : w₀.Meets w u p) {x : ScriptExpr}
    (hout : (ScriptHost.proxyOperand s x).outcome w = (.ok u, w')) :
    w₀.Meets w' u p ∧ w₀.Safe u.handle := by
  have hsparing : Sparing w₀ (ScriptHost.proxyOperand s x) fun u => w₀.Safe u.handle :=
    .proxyOperand hs x
  obtain ⟨h', husafe⟩ := h.operand hsparing (proxyOperand_keepsUserdata s x) hout
  exact ⟨h', husafe⟩

/-- The same for an operand that is any script value. -/
theorem Meets.target (h : w₀.Meets w u p) {x : ScriptExpr}
    (hout : (x.eval s).outcome w = (.ok (.userdata u), w')) :
    w₀.Meets w' u p ∧ w₀.Safe u.handle := by
  obtain ⟨h', hvalue⟩ := h.operand (x.eval_sparing hs) (x.eval_keepsUserdata s) hout
  exact ⟨h', hvalue _ List.mem_cons_self⟩

/-- A further operand is evaluated while the first ones are held, and is held with them. -/
theorem Meets.next (h : w₀.Meets w u p) {x : ScriptExpr} {held : List Handle}
    (hheld : ∀ y ∈ held, w₀.Safe y) {k : ScriptValue}
    (hout : (holding held (x.eval s)).outcome w = (.ok k, w')) :
    w₀.Meets w' u p ∧ ∀ y ∈ held ++ handles k, w₀.Safe y := by
  obtain ⟨h', hk⟩ := h.operand (.holding hheld (x.eval_sparing hs))
    (.holding held (x.eval_keepsUserdata s)) hout
  exact ⟨h', List.forall_mem_append.mpr ⟨hheld, hk⟩⟩

end Scope

/-- The operation reaches for the proxy while it holds what its operands gave. -/
theorem Meets.keeping (h : w₀.Meets w u p) {hs : List Handle} (hhs : ∀ x ∈ hs, w₀.Safe x) :
    w₀.Meets (w.keeping hs) u p :=
  ⟨h.since.keeping hhs, h.proxy⟩

end World

namespace Act

variable {α β : Type} {w w' : World} {e : HostFailure}

/-- The act throws, from the side of script, an error that shows the failure. -/
def ThrowsAs (m : Act Failure α) (w : World) (e : HostFailure) : Prop :=
  ∃ x w', m.outcome w = (.error (.raised x), w') ∧ w'.Shows x e

/-- What throws at once throws, whatever was to follow. -/
theorem ThrowsAs.bind {m : Act Failure α} {f : α → Act Failure β} (h : ThrowsAs m w e) :
    ThrowsAs (m >>= f) w e := by
  obtain ⟨x, w', hm, hx⟩ := h
  exact ⟨x, w', outcome_bind_error hm, hx⟩

/-- What throws after something has succeeded throws. -/
theorem ThrowsAs.after {m : Act Failure α} {f : α → Act Failure β} {a : α}
    (hm : m.outcome w = (.ok a, w')) (h : ThrowsAs (f a) w' e) : ThrowsAs (m >>= f) w e := by
  obtain ⟨x, w'', hf, hx⟩ := h
  exact ⟨x, w'', (outcome_bind_ok hm).trans hf, hx⟩

/-- What throws while something is held throws after it is let go of. -/
theorem ThrowsAs.holding {hs : List Handle} {m : Act Failure α} (h : ThrowsAs m (w.keeping hs) e) :
    ThrowsAs (Act.holding hs m) w e := by
  obtain ⟨x, w', hm, hx⟩ := h
  have hout : (Act.holding hs m).outcome w = (.error (.raised x), { w' with held := w.held }) := by
    rw [outcome_holding, show m.outcome { w with held := hs ++ w.held } = _ from hm]
  exact ⟨x, _, hout, hx.later (.of_eq rfl)⟩

/-- What is raised on the side of script is thrown. -/
theorem RaisesAs.throwing {m : Act ScriptError α} (h : RaisesAs m w e) :
    ThrowsAs (Act.throwing m) w e := by
  obtain ⟨x, w', hm, hx⟩ := h
  have hout : (Act.throwing m).outcome w = (.error (.raised x), w') := by
    unfold Act.throwing
    rw [outcome_mapError, hm]
  exact ⟨x, w', hout, hx⟩

/-! ### What a refusal comes to -/

/-- The state of a proxy. -/
theorem outcome_proxyState {u : UserdataRef} {p : Proxy} (hp : w.proxy? u = some p) :
    (proxyState u).outcome w = (.ok p, w) := by
  unfold proxyState
  rw [outcome_bind_ok (outcome_look _ w), hp]
  rfl

/-- A failure of the host, while something is held. -/
theorem outcome_holding_failing {hs : List Handle} {m : Act HostFailure α}
    (hm : m.outcome (w.keeping hs) = (.error e, w.keeping hs)) :
    (Act.holding hs (failing m)).outcome w = (.error (.failed e), w) := by
  rw [outcome_holding]
  unfold failing
  rw [outcome_mapError, show m.outcome { w with held := hs ++ w.held } = _ from hm]
  rfl

section Script

variable {u : UserdataRef} {p : Proxy} {err : AccessError} (hp : w.proxy? u = some p)
  (h : w.Refuses p err)
include hp h

/-- Outside coroutines, script gets what the proxy says. -/
theorem raisesAs_index_of_refuses (key : ScriptValue) :
    RaisesAs (index false (.userdata u) key) w (.binding err) := by
  refine .after (outcome_look _ _) ?_
  rw [World.userdatum_of_proxy hp]
  -- Outside coroutines the guard lets it pass to the proxy, which refuses.
  have hread : (guard false (accessName p key) >>= fun _ => readProxy p key).outcome w =
      (.error (.binding err), w) :=
    (outcome_bind_ok (outcome_guard false _ w)).trans (h.1 key)
  exact .of_failure hread nofun

/-- An assignment through a proxy that refuses raises its error. -/
theorem raisesAs_setIndex_of_refuses (key value : ScriptValue) :
    RaisesAs (setIndex false (.userdata u) key value) w (.binding err) := by
  refine .after (outcome_look _ _) ?_
  rw [World.userdatum_of_proxy hp]
  have hwrite : (guard false (accessName p key) >>= fun _ => writeProxy p key value).outcome w =
      (.error (.binding err), w) :=
    (outcome_bind_ok (outcome_guard false _ w)).trans (h.2 key value)
  exact .of_failure hwrite nofun

end Script

end Act

/-- **The scope gets nowhere through the userdata.** Each of its operations that reads or writes
through it fails once its operands are there. The host gets the error as it is, and script gets
something raised that shows it; inside a coroutine script does not get as far as that. -/
structure Scope.Refused (s : Scope) (w : World) (u : UserdataRef) (e : AccessError) : Prop where
  read : ∀ proxy key w₁ k w₂, (proxyOperand s proxy).outcome w = (.ok u, w₁) →
    (holding [u.handle] (key.eval s)).outcome w₁ = (.ok k, w₂) →
    ((ProxyAction.read proxy key).run s).outcome w = (.error (.failed (.binding e)), w₂)
  write : ∀ proxy key value w₁ k w₂ v w₃, (proxyOperand s proxy).outcome w = (.ok u, w₁) →
    (holding [u.handle] (key.eval s)).outcome w₁ = (.ok k, w₂) →
    (holding (u.handle :: handles k) (value.eval s)).outcome w₂ = (.ok v, w₃) →
    ((ProxyAction.write proxy key value).run s).outcome w = (.error (.failed (.binding e)), w₃)
  index : s.inCoroutine = false → ∀ call target key w₁ k w₂,
    (target.eval s).outcome w = (.ok (.userdata u), w₁) →
    (holding [u.handle] (key.eval s)).outcome w₁ = (.ok k, w₂) →
    ThrowsAs ((CallAction.index target key).run call s) w (.binding e)
  setIndex : s.inCoroutine = false → ∀ call target key value w₁ k w₂ v w₃,
    (target.eval s).outcome w = (.ok (.userdata u), w₁) →
    (holding [u.handle] (key.eval s)).outcome w₁ = (.ok k, w₂) →
    (holding (u.handle :: handles k) (value.eval s)).outcome w₂ = (.ok v, w₃) →
    ThrowsAs ((CallAction.setIndex target key value).run call s) w (.binding e)
  invoke : s.inCoroutine = false → ∀ call target key args w₁ k w₂ vs w₃,
    (target.eval s).outcome w = (.ok (.userdata u), w₁) →
    (holding [u.handle] (key.eval s)).outcome w₁ = (.ok k, w₂) →
    (holding (u.handle :: handles k) (args.eval s)).outcome w₂ = (.ok vs, w₃) →
    ThrowsAs ((CallAction.invoke target key args).run call s) w (.binding e)

/-! ### Operations -/

section Refused

open World (AllSafe)

variable {w w₁ w₂ w₃ : World} {s : Scope} {u : UserdataRef} {p : Proxy} {e : AccessError}
  {call : Caller} {x key value : ScriptExpr} {k v : ScriptValue} (hs : w.AllSafe s)
  (hbegin : w.Meets w u p) (hrefuses : ∀ {v : World}, w.Since v → v.Refuses p e)
include hs hbegin hrefuses

/-- A read through the host's own interface fails, and nothing else comes about: the world is the one
in which the operands were evaluated. -/
theorem ProxyAction.refused_read (hu : (proxyOperand s x).outcome w = (.ok u, w₁))
    (hk : (holding [u.handle] (key.eval s)).outcome w₁ = (.ok k, w₂)) :
    ((ProxyAction.read x key).run s).outcome w = (.error (.failed (.binding e)), w₂) := by
  obtain ⟨h₁, husafe⟩ := hbegin.proxyOperand hs hu
  obtain ⟨h₂, hheld⟩ := h₁.next hs (AllSafe.singleton husafe) hk
  -- The proxy refuses in every world that comes after, so also in this one.
  have hmet := hrefuses (h₂.keeping hheld).since
  simp only [ProxyAction.run]
  rw [outcome_bind_ok hu, outcome_bind_ok hk, outcome_bind_ok (outcome_proxyState h₂.proxy)]
  exact outcome_bind_error (outcome_holding_failing (hmet.1 k))

/-- The same for a write. The value has been evaluated when it fails. -/
theorem ProxyAction.refused_write (hu : (proxyOperand s x).outcome w = (.ok u, w₁))
    (hk : (holding [u.handle] (key.eval s)).outcome w₁ = (.ok k, w₂))
    (hv : (holding (u.handle :: handles k) (value.eval s)).outcome w₂ = (.ok v, w₃)) :
    ((ProxyAction.write x key value).run s).outcome w = (.error (.failed (.binding e)), w₃) := by
  obtain ⟨h₁, husafe⟩ := hbegin.proxyOperand hs hu
  obtain ⟨h₂, hheld⟩ := h₁.next hs (AllSafe.singleton husafe) hk
  obtain ⟨h₃, hheld⟩ := h₂.next hs hheld hv
  have hmet := hrefuses (h₃.keeping hheld).since
  simp only [ProxyAction.run]
  rw [outcome_bind_ok hu, outcome_bind_ok hk, outcome_bind_ok hv,
    outcome_bind_ok (outcome_proxyState h₃.proxy)]
  exact outcome_bind_error (outcome_holding_failing (hmet.2 k v))

variable (hout : s.inCoroutine = false) (ht : (x.eval s).outcome w = (.ok (.userdata u), w₁))
  (hk : (holding [u.handle] (key.eval s)).outcome w₁ = (.ok k, w₂))
include hout ht hk

/-- An index by a script throws the error. -/
theorem CallAction.refused_index :
    ThrowsAs ((CallAction.index x key).run call s) w (.binding e) := by
  obtain ⟨h₁, husafe⟩ := hbegin.target hs ht
  obtain ⟨h₂, hheld⟩ := h₁.next hs (AllSafe.singleton husafe) hk
  have hmet := h₂.keeping hheld
  have hindex := raisesAs_index_of_refuses hmet.proxy (hrefuses hmet.since) k
  simp only [CallAction.run, hout]
  exact .after ht (.after hk (.holding hindex.throwing.bind))

/-- An assignment by a script throws it when the value has been evaluated. -/
theorem CallAction.refused_setIndex
    (hv : (holding (u.handle :: handles k) (value.eval s)).outcome w₂ = (.ok v, w₃)) :
    ThrowsAs ((CallAction.setIndex x key value).run call s) w (.binding e) := by
  obtain ⟨h₁, husafe⟩ := hbegin.target hs ht
  obtain ⟨h₂, hheld⟩ := h₁.next hs (AllSafe.singleton husafe) hk
  obtain ⟨h₃, hheld⟩ := h₂.next hs hheld hv
  have hmet := h₃.keeping hheld
  have hset := raisesAs_setIndex_of_refuses hmet.proxy (hrefuses hmet.since) k v
  simp only [CallAction.run, hout]
  exact .after ht (.after hk (.after hv (ThrowsAs.holding hset.throwing).bind))

/-- A method call throws it when the arguments have been evaluated, because the method is looked up
after that. -/
theorem CallAction.refused_invoke {args : ScriptItems} {vs : List ScriptValue}
    (hvs : (holding (u.handle :: handles k) (args.eval s)).outcome w₂ = (.ok vs, w₃)) :
    ThrowsAs ((CallAction.invoke x key args).run call s) w (.binding e) := by
  obtain ⟨h₁, husafe⟩ := hbegin.target hs ht
  have htarget := AllSafe.singleton husafe
  obtain ⟨h₂, hheld⟩ := h₁.next hs htarget hk
  obtain ⟨h₃, hvsafe⟩ := h₂.operand (.holding hheld (args.eval_sparing hs))
    (.holding _ (args.eval_keepsUserdata s)) hvs
  -- The target is held, and the key and the arguments with it while the function is found.
  have hkey : ∀ y ∈ handles k, w.Safe y := (List.forall_mem_append.mp hheld).2
  have hargs : ∀ y ∈ handles k ++ handles vs, w.Safe y :=
    List.forall_mem_append.mpr ⟨hkey, hvsafe⟩
  have hmet := (h₃.keeping htarget).keeping hargs
  have hindex := raisesAs_index_of_refuses hmet.proxy (hrefuses hmet.since) k
  have hinvoke : RaisesAs (Act.invoke call false (.userdata u) k vs) (w₃.keeping [u.handle])
      (.binding e) := (RaisesAs.holding hindex).bind
  simp only [CallAction.run, hout]
  exact .after ht (.after hk (.after hvs (.holding hinvoke.throwing.bind)))

end Refused

/-- **A proxy that refuses from some moment on refuses every operation that begins then.** -/
theorem Scope.refused {w : World} {s : Scope} {u : UserdataRef} {p : Proxy} {e : AccessError}
    (hw : w.Closed) (hs : w.AllSafe s) (hp : w.proxy? u = some p)
    (hrefuses : ∀ {v : World}, w.Since v → v.Refuses p e) : s.Refused w u e := by
  -- Nothing has happened yet when the operation begins.
  have hbegin : w.Meets w u p := ⟨.refl hw, hp⟩
  constructor
  case read =>
    intro proxy key w₁ k w₂ hu hk
    exact ProxyAction.refused_read hs hbegin hrefuses hu hk
  case write =>
    intro proxy key value w₁ k w₂ v w₃ hu hk hv
    exact ProxyAction.refused_write hs hbegin hrefuses hu hk hv
  case index =>
    intro hout call target key w₁ k w₂ ht hk
    exact CallAction.refused_index hs hbegin hrefuses hout ht hk
  case setIndex =>
    intro hout call target key value w₁ k w₂ v w₃ ht hk hv
    exact CallAction.refused_setIndex hs hbegin hrefuses hout ht hk hv
  case invoke =>
    intro hout call target key args w₁ k w₂ vs w₃ ht hk hvs
    exact CallAction.refused_invoke hs hbegin hrefuses hout ht hk hvs

end ScriptHost
