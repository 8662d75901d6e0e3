import ScriptHost.Proofs.Afterlife.Safe
import ScriptHost.Proofs.Proxies.Gone

/-!
# What becomes of a world

`World.Since w₀ w` compares a world with one that came before it, whatever happened in between: what
was dead is dead, what was made is made, functions are what they were, and proxies stand for what
they stood for or were disposed. The first is the one that takes some thought. A dead thing comes
back to life when somebody gets hold of it again, so nobody must: all that is new in the later world
holds things that were not dead in the earlier one (`World.Spares`).

The lemmas are about looking: what is found at a root, or in a thing that is safe, is safe. What a
change has to be like is said by `World.Moves`.
-/

set_option autoImplicit false

namespace ScriptHost

namespace World

/-- A coroutine that can still be resumed is there. -/
theorem coroutine_of_suspended {w : World} {c : CoroutineRef}
    (hs : (w.coroutine c).status = .suspended) :
    ∃ x, w.coroutines.get? c = some x ∧ w.coroutine c = x := by
  unfold World.coroutine at hs ⊢
  cases hx : w.coroutines.get? c with
  | none =>
    rw [hx] at hs
    cases hs
  | some x => exact ⟨x, rfl, rfl⟩

/-! ### The comparison -/

variable {w₀ w : World}

/-- A world that came to be after another one. -/
structure Since (w₀ w : World) : Prop where
  spares : w₀.Spares w
  closed : w.Closed
  /-- A proxy stands for what it stood for, or was disposed. -/
  proxies : ∀ u p, w₀.userdata.get? u = some (.proxy p) →
    ∃ t, w.userdata.get? u = some (.proxy { p with target := t }) ∧ (t = p.target ∨ t = none)
  functions : ∀ f x, w₀.functions.get? f = some x → w.functions.get? f = some x

namespace Since

/-- A world comes after itself. -/
theorem refl (hw : w.Closed) : w.Since w :=
  ⟨.refl w, hw, fun _ p h => ⟨p.target, h, .inl rfl⟩, fun _ _ h => h⟩

variable (h : w₀.Since w)
include h

/-! ### Looking -/

/-- What is at a root now was not dead before. -/
theorem safe_of_root {x : Handle} (hx : x ∈ w.roots) : w₀.Safe x := h.spares.roots x hx

/-- What is alive now was not dead before. -/
theorem safe_of_alive {x : Handle} (hx : w.alive x = true) : w₀.Safe x := fun hmade =>
  h.spares.safe_of_lives ⟨h.spares.things x hmade, hx⟩ hmade

/-- **What is in a safe thing is safe**: a dead thing is held by dead things only. -/
theorem safe_of_contents {a x : Handle} (ha : w₀.Safe a) (hx : x ∈ w.contents a) : w₀.Safe x := by
  rcases h.spares.keeps a x (keeps_iff.mpr hx) with hkept | hsafe
  · exact fun _ hdead => ha (mem_things_of_keeps hkept) (hdead.holder hkept)
  · exact hsafe

/-- What is in a safe table is safe: if the table was there before, because it was not dead then, and
if it is new, because nothing new holds anything dead. -/
theorem table {t : TableRef} (ht : w₀.Safe t.handle) : w₀.AllSafe (w.table t) := by
  unfold World.table
  refine AllSafe.getD (fun k hk => h.safe_of_contents ht hk) (.of_eq_nil rfl)

/-- The same for what a function holds. -/
theorem function {f : FunctionRef} (hf : w₀.Safe f.handle) : w₀.AllSafe (w.function f) := by
  unfold World.function
  exact AllSafe.getD (fun k hk => h.safe_of_contents hf hk) (.of_eq_nil rfl)

/-- For what a userdata holds. -/
theorem userdatum {u : UserdataRef} (hu : w₀.Safe u.handle) : w₀.AllSafe (w.userdatum u) := by
  unfold World.userdatum
  exact AllSafe.getD (fun k hk => h.safe_of_contents hu hk) (.of_eq_nil rfl)

/-- For what is in the slots of an object. -/
theorem object {o : ObjectRef} (ho : w₀.Safe o.ref.handle) : w₀.AllSafe (w.object o) := by
  unfold World.object
  exact AllSafe.getD (fun k hk => h.safe_of_contents ho hk) (.of_eq_nil rfl)

/-- And for what a class holds. -/
theorem cls {c : ClassRef} (hc : w₀.Safe c.ref.handle) : w₀.AllSafe (w.cls c) := by
  unfold World.cls
  exact AllSafe.getD (fun k hk => h.safe_of_contents hc hk) (.of_eq_nil rfl)

/-- A coroutine holds its function. -/
theorem coroutineFunction {c : CoroutineRef} (hc : w₀.Safe c.handle) {x : Coroutine}
    (hx : w.coroutines.get? c = some x) : w₀.Safe x.function.handle := by
  refine h.safe_of_contents hc ?_
  show x.function.handle ∈ handles (w.coroutines.get? ⟨c.index⟩)
  rw [show w.coroutines.get? ⟨c.index⟩ = some x from hx]
  exact mem_handles_some.mpr List.mem_cons_self

/-- The table of globals. -/
theorem globals : w₀.Safe w.globals.handle :=
  h.safe_of_root (List.mem_append_right _ List.mem_cons_self)

/-- A global. -/
theorem global (key : ScriptValue) : w₀.AllSafe ((w.table w.globals).get key) :=
  Table.allSafe_get (h.table h.globals) key

/-- What is held elsewhere. -/
theorem held : ∀ x ∈ w.held, w₀.Safe x := h.spares.held

/-- What is stored in a variable. -/
theorem mem_vars {p : String × Stored} (hp : p ∈ w.vars) : w₀.AllSafe p.2 := fun k hk =>
  h.safe_of_root (mem_roots.mpr (.inr (by
    refine List.mem_append_left _ (List.mem_append_left _ (List.mem_append_right _ ?_))
    exact List.mem_flatMap.mpr ⟨p, hp, hk⟩)))

/-- A variable that is looked up: nothing dead is in it, and its body, if it has one, is closed. -/
theorem var {name : String} {s : Stored} (hs : w.var? name = some s) :
    w₀.AllSafe s ∧ s.Closed := by
  obtain ⟨p, hp, rfl⟩ := Option.map_eq_some_iff.mp hs
  have hmem := List.mem_of_find?_eq_some hp
  exact ⟨h.mem_vars hmem, h.closed.vars p hmem⟩

/-! Proxies name their objects weakly, so what they reach is safe because it is alive. -/

/-- A proxy holds the class of what it names. -/
theorem proxy {u : UserdataRef} (hu : w₀.Safe u.handle) {p : Proxy} (hp : w.proxy? u = some p)
    {t : Target} (ht : p.target = some t) : w₀.AllSafe t.cls := by
  have hsafe := h.userdatum hu
  rw [userdatum_of_proxy hp] at hsafe
  intro k hk
  refine hsafe k ?_
  show k ∈ (p.target.map Target.weakHandles).getD []
  rw [ht]
  exact hk

/-- What a target leads to. -/
theorem reached {t t' : Target} (ht : w₀.AllSafe t.cls) (hr : w.reach? t = some t') :
    w₀.AllSafe t' := by
  cases t with
  | type c =>
    obtain rfl := Option.some.inj hr
    exact ht
  | object o =>
    -- It is reached only where it is alive.
    cases halive : w.alive o.ref.handle with
    | true =>
      rw [reach?_object halive] at hr
      obtain rfl := Option.some.inj hr
      exact List.forall_mem_cons.mpr ⟨h.safe_of_alive halive, ht⟩
    | false =>
      rw [reach?_eq_none halive] at hr
      cases hr

/-- What a proxy stands for. -/
theorem proxyTarget {u : UserdataRef} (hu : w₀.Safe u.handle) {t : Target}
    (ht : w.proxyTarget? u = some t) : w₀.AllSafe t := by
  obtain ⟨p, hp, hreach⟩ := Option.bind_eq_some_iff.mp ht
  obtain ⟨t', ht', hreach⟩ := Option.bind_eq_some_iff.mp hreach
  exact h.reached (h.proxy hu hp ht') hreach

/-- A proxy stands for what it reaches, other values for themselves. -/
theorem naturalValue {v : ScriptValue} (hv : w₀.AllSafe v) : w₀.AllSafe (w.naturalValue v) := by
  cases v with
  | userdata u =>
    have hu : w₀.Safe u.handle := hv _ List.mem_cons_self
    simp only [World.naturalValue]
    split
    · next o ho => exact h.proxyTarget hu ho
    · next c hc => exact h.proxyTarget hu hc
    · exact hv
  | function f => exact hv
  | table t => exact hv
  | _ => exact .of_eq_nil rfl

/-- What a carrier carries is safe. -/
theorem unwrapError {e : ScriptError} (he : w₀.AllSafe e) : w₀.AllSafe (Act.unwrapError w e) := by
  unfold Act.unwrapError
  split
  · next u hu =>
    -- An error object of the host stands in for the error that it carries, and what it carries is
    -- a part of the userdata.
    have hsafe : w₀.Safe u.handle := he _ (by
      show _ ∈ handles e.value
      rw [hu]
      exact List.mem_cons_self)
    split
    · next inner hinner =>
      have hcarrier := h.userdatum hsafe
      rw [hinner] at hcarrier
      exact hcarrier
    · exact he
  · exact he

/-- Members that are found are safe if the class is, and their bodies are closed. -/
theorem resolve {b : Binding} {c : ClassRef} (hc : w₀.AllSafe c) {k : MemberKey}
    {onInstance : Bool} {m : Member} (hm : m ∈ b.resolve (w.cls c) k onInstance) :
    w₀.AllSafe m ∧ m.Closed := by
  have hmember := Binding.mem_members_of_resolve hm
  have hcls := h.cls (hc _ List.mem_cons_self)
  refine ⟨fun x hx => hcls x ?_, ?_⟩
  -- The class is safe, so what its members hold is, and its methods were stored with closed bodies.
  · exact List.mem_append_left _ (List.mem_flatMap.mpr ⟨m, hmember, hx⟩)
  · unfold World.cls at hmember
    cases hget : w.classes.get? c.ref with
    | none =>
      rw [hget] at hmember
      cases hmember
    | some info =>
      rw [hget] at hmember
      exact h.closed.classes c.ref info hget m hmember

/-- The slots that a new object of a class starts with. -/
theorem constructor {c : ClassRef} (hc : w₀.AllSafe c) {s : Slots}
    (hs : (w.cls c).constructor = some s) : w₀.AllSafe s := fun x hx => by
  refine h.cls (hc _ List.mem_cons_self) x (List.mem_append_right _ ?_)
  rw [hs]
  exact hx

/-- The code of a function is closed. -/
theorem code (f : FunctionRef) : (w.function f).code.Closed := by
  unfold World.function
  cases hf : w.functions.get? f with
  | none => rfl
  | some x => exact h.closed.functions f x hf

end Since

end World

end ScriptHost
