import ScriptHost.Proofs.Act.Effects
import ScriptHost.Proofs.Proxies.Place

/-!
# One live proxy for each object

A run of one binding is a sequence of conversions to script, of whole values and of lists of
arguments, with anything else in between that leaves the binding's cache alone and retargets no
proxy: objects and proxies are made and dropped, proxies are disposed. `ProxyRun` lists the
conversions of such a run, and `World.after_proxyRun` says that every session is one.

The main result is `one_live_proxy`. What is assumed of addresses is `Moment.Owned`: what is
converted lives, and no two living objects have one address. The address of an object that is gone
may be used again.

Two things are carried along a run. What a proxy targets never changes except that it is disposed
(`World.Fades`), which keeps proxies of different objects apart. The entry of an object stays in the
cache while its proxy is in use (`ProxyRun.entry`), which makes later conversions give the same one.
-/

set_option autoImplicit false

namespace ScriptHost

open Act World

/-! ### Conversions -/

/-- What is converted at once: a value, or a list of arguments. -/
inductive Conversion where
  | value (x : HostValue)
  | values (xs : List HostValue)

namespace Conversion

/-- The values that are converted. -/
def items : Conversion → List HostValue
  | value x => [x]
  | values xs => xs

/-- The conversion under a binding. -/
def run {ε : Type} (via : BindingRef) : Conversion → Act ε (List ScriptValue)
  | value x => do
    let v ← toScript via x
    pure [v]
  | values xs => toScriptAll via xs

variable {ε : Type} {via : BindingRef} {c : Conversion} {o : ObjectRef} {u : UserdataRef}
  {w w' : World} {vs : List ScriptValue}

/-- A conversion never fails, and the world only grows. -/
theorem run_ok (via : BindingRef) (c : Conversion) (w : World) :
    ∃ vs w', (c.run via : Act ε _).outcome w = (.ok vs, w') ∧ w.Grows w' := by
  cases c with
  | value x =>
    obtain ⟨s, w', hs, hg⟩ := toScript_ok (ε := ε) via x w
    exact ⟨[s], w', outcome_bind_ok hs, hg⟩
  | values xs => exact toScriptEach_ok via xs _ w

/-- A single value is converted as it is. -/
theorem value_inv {x : HostValue} (h : ((value x).run via : Act ε _).outcome w = (.ok vs, w')) :
    ∃ s, (toScript via x : Act ε ScriptValue).outcome w = (.ok s, w') ∧ vs = [s] := by
  obtain ⟨s, w₁, hs, -⟩ := toScript_ok (ε := ε) via x w
  rw [run, outcome_bind_ok hs] at h
  cases h
  exact ⟨s, hs, rfl⟩

/-- A conversion that took place has only added. -/
theorem run_grows (h : (c.run via : Act ε _).outcome w = (.ok vs, w')) : w.Grows w' := by
  obtain ⟨vs', w₁, h', hg⟩ := run_ok (ε := ε) via c w
  rw [h] at h'
  cases h'
  exact hg

/-- An entry whose proxy is in use survives it. -/
theorem run_entry (h : (c.run via : Act ε _).outcome w = (.ok vs, w')) (he : w.Entry via o u)
    (hu : w.InUse o u) (hapart : w.ApartFrom o (HostValue.heldAll c.items)) : w'.Entry via o u := by
  cases c with
  | value x =>
    obtain ⟨s, hs, -⟩ := value_inv h
    exact toScript_entry hs he hu (hapart.mono (fun k hk => List.mem_append_left _ hk) rfl)
  | values xs => exact toScriptEach_entry h he hu hapart

/-- Where an object stood in what was converted, its proxy stands in the result. -/
theorem run_leaves (h : (c.run via : Act ε _).outcome w = (.ok vs, w'))
    (hvia : ∃ b, w.bindings.get? via = some b) {i : Nat} {p : List Nat} {x : HostValue}
    (hr : Readable p) (hx : c.items[i]? = some x) (hp : x.at? p = some (.object o)) :
    ∃ v, vs[i]? = some v ∧ Leaves via o (HostValue.heldAll c.items) w v p w' := by
  cases c with
  | value y =>
    obtain ⟨s, hs, rfl⟩ := value_inv h
    cases i with
    | zero =>
      obtain rfl := Option.some.inj hx
      obtain ⟨u, hread, htargets, hentry⟩ := toScript_leaves hs hvia hr hp
      exact ⟨s, rfl, u, hread, htargets, fun ho hapart =>
        hentry ho (hapart.mono (fun k hk => List.mem_append_left _ hk) rfl)⟩
    | succ i => cases hx
  | values xs => exact toScriptEach_leaves h hvia hr hx hp

end Conversion

namespace HostValue

/-- What one of several values holds they hold together. -/
theorem mem_heldAll {xs : List HostValue} {x : HostValue} {h : Handle} (hx : x ∈ xs)
    (hh : h ∈ x.held) : h ∈ heldAll xs := by
  induction xs with
  | nil => cases hx
  | cons y ys ih =>
    rcases List.mem_cons.mp hx with rfl | hx
    · exact List.mem_append_left _ hh
    · exact List.mem_append_right _ (ih hx)

/-- What stands somewhere in a value is held by it. -/
theorem held_of_at? {x : HostValue} {p : List Nat} {o : ObjectRef}
    (h : x.at? p = some (.object o)) : o.ref.handle ∈ x.held := by
  induction p generalizing x with
  | nil =>
    obtain rfl : x = .object o := Option.some.inj h
    exact List.mem_cons_self
  | cons i p ih =>
    cases x with
    | array items =>
      obtain ⟨y, hy, hyp⟩ := Option.bind_eq_some_iff.mp h
      exact mem_heldAll (List.mem_of_getElem? hy) (ih hyp)
    | _ => cases h

end HostValue

/-! ### Runs -/

namespace World

/-- What a proxy targets may be taken from it, and nothing else happens to it. -/
def Fades (w w' : World) : Prop :=
  ∀ u p, w.proxy? u = some p →
    ∃ p', w'.proxy? u = some p' ∧ (p'.target = p.target ∨ p'.target = none)

/-- What happens to a binding between its conversions: its cache stays, and no proxy gets another
target. -/
structure Meanwhile (via : BindingRef) (w w' : World) : Prop where
  cache : (w'.bindings.get? via).map Binding.cache = (w.bindings.get? via).map Binding.cache
  layout : w'.layout = w.layout
  fades : w.Fades w'

variable {w w' w'' : World} {via : BindingRef} {o o' : ObjectRef} {u : UserdataRef}

/-- Where no userdata changed no proxy did. -/
theorem Fades.of_eq (h : w'.userdata = w.userdata) : w.Fades w' := by
  intro u p hp
  refine ⟨p, ?_, .inl rfl⟩
  exact proxy?_eq_some.mpr (by rw [h]; exact proxy?_eq_some.mp hp)

theorem Fades.refl (w : World) : w.Fades w := .of_eq rfl

/-- What fades twice fades. -/
theorem Fades.trans (h : w.Fades w') (h' : w'.Fades w'') : w.Fades w'' := by
  intro u p hp
  obtain ⟨p', hp', ht⟩ := h u p hp
  obtain ⟨p'', hp'', ht'⟩ := h' u p' hp'
  refine ⟨p'', hp'', ?_⟩
  rcases ht' with ht' | ht'
  · exact ht.imp ht'.trans ht'.trans
  · exact .inr ht'

/-- In a world that only grows proxies keep their targets. -/
theorem Grows.fades (h : w.Grows w') : w.Fades w' :=
  fun _ p hp => ⟨p, h.proxy? hp, .inl rfl⟩

/-- A disposed proxy loses its target, and the others keep theirs. -/
theorem fades_disposed {p : Proxy} (hp : w.proxy? u = some p) :
    w.Fades { w with userdata := w.userdata.set u (.proxy { p with target := none }) } := by
  intro v q hq
  by_cases hv : v = u
  · subst hv
    refine ⟨{ p with target := none }, proxy?_eq_some.mpr ?_, .inr rfl⟩
    rw [Store.get?_set, if_pos rfl, proxy?_eq_some.mp hp, Option.map_some]
  · refine ⟨q, proxy?_eq_some.mpr ?_, .inl rfl⟩
    rw [Store.get?_set_ne _ _ hv]
    exact proxy?_eq_some.mp hq

/-- A proxy of one object does not become one of another. -/
theorem Only.fades (h : w.Only u o) (hf : w.Fades w') : w'.Only u o := by
  obtain ⟨p, hp, honly⟩ := h
  obtain ⟨p', hp', ht⟩ := hf u p hp
  refine ⟨p', hp', fun t hpt => ?_⟩
  rcases ht with ht | ht
  · exact honly t (ht ▸ hpt)
  · rw [ht] at hpt
    cases hpt

/-- A proxy of one object that later targets an object targets the same. -/
theorem Targets.same_of_fades (h : w.Targets u o) (hf : w.Fades w') (h' : w'.Targets u o') :
    o.same o' = true := by
  obtain ⟨p, hp, honly⟩ := h.only.fades hf
  obtain ⟨p', t, hp', ht, hsame⟩ := h'
  obtain rfl := Option.some.inj (hp.symm.trans hp')
  exact same_iff.mpr ((same_iff.mp (honly _ ht)).symm.trans (same_iff.mp hsame))

/-- An address has one entry. -/
theorem Entry.unique {u' : UserdataRef} (h : w.Entry via o u) (h' : w.Entry via o' u')
    (href : o.ref = o'.ref) : u = u' := by
  obtain ⟨⟨b, hb, hfind⟩, -⟩ := h
  obtain ⟨⟨b', hb', hfind'⟩, -⟩ := h'
  obtain rfl := Option.some.inj (hb.symm.trans hb')
  rw [href] at hfind
  exact Option.some.inj (hfind.symm.trans hfind')

/-- Meanwhile an entry stays in the cache. -/
theorem Meanwhile.entry (h : w.Meanwhile via w') (he : w.Entry via o u) : w'.Entry via o u := by
  obtain ⟨b, hb, hfind⟩ := he.found
  have hcache := h.cache
  rw [hb] at hcache
  obtain ⟨b', hb', heq⟩ := Option.map_eq_some_iff.mp hcache
  refine ⟨⟨b', hb', ?_⟩, he.only.fades h.fades⟩
  rw [heq, h.layout]
  exact hfind

/-- Meanwhile the binding stays. -/
theorem Meanwhile.bound (h : w.Meanwhile via w') (hvia : ∃ b, w.bindings.get? via = some b) :
    ∃ b, w'.bindings.get? via = some b := by
  obtain ⟨b, hb⟩ := hvia
  have hcache := h.cache
  rw [hb] at hcache
  exact (Option.map_eq_some_iff.mp hcache).imp fun _ hb' => hb'.1

/-- Nothing happened to the binding where neither bindings nor userdata changed. -/
theorem Meanwhile.of_eq (hb : w'.bindings = w.bindings) (hu : w'.userdata = w.userdata)
    (hl : w'.layout = w.layout) : w.Meanwhile via w' :=
  ⟨by rw [hb], hl, .of_eq hu⟩

end World

/-- One conversion of a run. -/
structure Moment (via : BindingRef) where
  before : World
  what : Conversion
  values : List ScriptValue
  after : World
  ran : ∃ ε : Type, (what.run via : Act ε _).outcome before = (.ok values, after)

/-- **A run of a binding**: conversions, listed in order, with anything in between that leaves the
cache alone. -/
inductive ProxyRun (via : BindingRef) : World → List (Moment via) → World → Prop where
  | done (w : World) : ProxyRun via w [] w
  | meanwhile {w w₁ w' : World} {ms : List (Moment via)} (h : w.Meanwhile via w₁)
      (hrun : ProxyRun via w₁ ms w') : ProxyRun via w ms w'
  | convert {w' : World} {ms : List (Moment via)} (m : Moment via)
      (hrun : ProxyRun via m.after ms w') : ProxyRun via m.before (m :: ms) w'

namespace Moment

variable {via : BindingRef}

/-- The value stands in the result where the object stood in what was converted. -/
def Turns (m : Moment via) (o : ObjectRef) (v : ScriptValue) : Prop :=
  ∃ (i : Nat) (p : List Nat) (x : HostValue), m.what.items[i]? = some x ∧
    x.at? p = some (.object o) ∧ Readable p ∧
    (m.values[i]?.map fun s => m.after.readAt s p).getD .nil = v

/-- Whoever converts something owns it, and objects that live have different addresses. -/
structure Owned (m : Moment via) : Prop where
  lives : ∀ a : Ref .object, a.handle ∈ HostValue.heldAll m.what.items → m.before.Lives a.handle
  apart : ∀ a b : Ref .object, m.before.Lives a.handle → m.before.Lives b.handle →
    m.before.layout a = m.before.layout b → a = b

/-- Every conversion in every world is one. -/
def make (via : BindingRef) (what : Conversion) (before : World) : Moment via where
  before := before
  what := what
  values := ((what.run via : Act Unit _).outcome before).1.toOption.getD []
  after := ((what.run via : Act Unit _).outcome before).2
  ran := by
    obtain ⟨vs, w', h, -⟩ := Conversion.run_ok (ε := Unit) via what before
    exact ⟨Unit, by rw [h]; rfl⟩

variable {m : Moment via} {o : ObjectRef} {u : UserdataRef} {v : ScriptValue}

/-- A conversion of a run only adds. -/
theorem grows (m : Moment via) : m.before.Grows m.after := by
  obtain ⟨ε, h⟩ := m.ran
  exact Conversion.run_grows h

/-- The binding stays through a conversion. -/
theorem bound (m : Moment via) (hvia : ∃ b, m.before.bindings.get? via = some b) :
    ∃ b, m.after.bindings.get? via = some b := by
  obtain ⟨b, hb⟩ := hvia
  exact m.grows.bindings via b hb

/-- An object that lives shares its address with nothing that is converted. -/
theorem Owned.apartFrom (h : m.Owned) (ho : m.before.Lives o.ref.handle) :
    m.before.ApartFrom o (HostValue.heldAll m.what.items) :=
  fun a ha heq => h.apart a o.ref (h.lives a ha) ho heq

/-- An entry survives a conversion while its proxy is in use. -/
theorem entry (h : m.Owned) (he : m.before.Entry via o u) (hu : m.before.InUse o u) :
    m.after.Entry via o u := by
  obtain ⟨ε, hran⟩ := m.ran
  exact Conversion.run_entry hran he hu (h.apartFrom hu.object)

/-- What stands where an object stood is an undisposed proxy of it. -/
theorem Turns.targets (h : m.Turns o v) (hvia : ∃ b, m.before.bindings.get? via = some b) :
    ∃ u, v = .userdata u ∧ m.after.Targets u o := by
  obtain ⟨i, p, x, hx, hp, hr, hv⟩ := h
  obtain ⟨ε, hran⟩ := m.ran
  obtain ⟨s, hs, u, hread, htargets, -⟩ := Conversion.run_leaves hran hvia hr hx hp
  refine ⟨u, ?_, htargets⟩
  rw [← hv, hs, Option.map_some, Option.getD_some, hread]

/-- What stands where an object stood is its entry. -/
theorem Turns.entry (h : m.Turns o (.userdata u)) (hm : m.Owned)
    (hvia : ∃ b, m.before.bindings.get? via = some b) : m.after.Entry via o u := by
  obtain ⟨i, p, x, hx, hp, hr, hv⟩ := h
  obtain ⟨ε, hran⟩ := m.ran
  obtain ⟨s, hs, u', hread, -, hentry⟩ := Conversion.run_leaves hran hvia hr hx hp
  rw [hs, Option.map_some, Option.getD_some, hread] at hv
  obtain rfl := ScriptValue.userdata.inj hv
  have hlives : m.before.Lives o.ref.handle :=
    hm.lives o.ref (HostValue.mem_heldAll (List.mem_of_getElem? hx) (HostValue.held_of_at? hp))
  exact hentry hlives (hm.apartFrom hlives)

end Moment

namespace ProxyRun

variable {via : BindingRef} {w w' w'' : World} {ms ms' : List (Moment via)} {o : ObjectRef}
  {u : UserdataRef}

/-- A run may be continued. -/
theorem append (h : ProxyRun via w ms w') (h' : ProxyRun via w' ms' w'') :
    ProxyRun via w (ms ++ ms') w'' := by
  induction h with
  | done w => exact h'
  | meanwhile hm _ ih => exact .meanwhile hm (ih h')
  | convert m _ ih => exact .convert m (ih h')

/-- A run goes through its conversions in order. -/
theorem split {later : List (Moment via)} {m : Moment via}
    (h : ProxyRun via w (ms ++ m :: later) w') :
    ProxyRun via w ms m.before ∧ ProxyRun via m.after later w' := by
  -- The list is one variable, so that the induction is on the run and not on the list.
  generalize hl : ms ++ m :: later = all at h
  induction h generalizing ms with
  | done w => simp at hl
  | meanwhile hm _ ih =>
    obtain ⟨hbefore, hafter⟩ := ih hl
    exact ⟨.meanwhile hm hbefore, hafter⟩
  | convert k hrun ih =>
    cases ms with
    | nil =>
      obtain ⟨rfl, rfl⟩ := List.cons.inj hl
      exact ⟨.done _, hrun⟩
    | cons k' ms =>
      obtain ⟨rfl, hrest⟩ := List.cons.inj hl
      obtain ⟨hbefore, hafter⟩ := ih hrest
      exact ⟨.convert _ hbefore, hafter⟩

/-- Through a run proxies fade at most. -/
theorem fades (h : ProxyRun via w ms w') : w.Fades w' := by
  induction h with
  | done w => exact .refl w
  | meanwhile hm _ ih => exact hm.fades.trans ih
  | convert m _ ih => exact m.grows.fades.trans ih

/-- The binding stays through a run. -/
theorem bound (h : ProxyRun via w ms w') (hvia : ∃ b, w.bindings.get? via = some b) :
    ∃ b, w'.bindings.get? via = some b := by
  induction h with
  | done w => exact hvia
  | meanwhile hm _ ih => exact ih (hm.bound hvia)
  | convert m _ ih => exact ih (m.bound hvia)

/-- **An entry stays** through a run, while its proxy is in use whenever something is converted. -/
theorem entry (h : ProxyRun via w ms w') (he : w.Entry via o u)
    (hms : ∀ m ∈ ms, m.Owned ∧ m.before.InUse o u) : w'.Entry via o u := by
  induction h with
  | done w => exact he
  | meanwhile hm _ ih => exact ih (hm.entry he) hms
  | convert m _ ih =>
    obtain ⟨howned, huse⟩ := hms m List.mem_cons_self
    exact ih (m.entry howned he huse) fun k hk => hms k (List.mem_cons_of_mem _ hk)

/-- Of two conversions of a run, one comes after the other. -/
theorem ordered (h : ProxyRun via w ms w') {m m' : Moment via} (hm : m ∈ ms) (hm' : m' ∈ ms) :
    m.after.Fades m'.after ∨ m'.after.Fades m.after := by
  obtain ⟨before, later, rfl⟩ := List.append_of_mem hm
  obtain ⟨hbefore, hafter⟩ := h.split
  -- The other conversion is among those before this one, or it is this one, or it is among those
  -- after.
  rcases List.mem_append.mp hm' with hm' | hm'
  · obtain ⟨_, _, rfl⟩ := List.append_of_mem hm'
    obtain ⟨-, hrun⟩ := hbefore.split
    exact .inr (hrun.fades.trans m.grows.fades)
  · rcases List.mem_cons.mp hm' with rfl | hm'
    · exact .inl (.refl _)
    · obtain ⟨_, _, rfl⟩ := List.append_of_mem hm'
      obtain ⟨hrun, -⟩ := hafter.split
      exact .inl (hrun.fades.trans m'.grows.fades)

/-- The binding is there whenever something is converted. -/
theorem bound_of_mem (h : ProxyRun via w ms w') (hvia : ∃ b, w.bindings.get? via = some b)
    {m : Moment via} (hm : m ∈ ms) : ∃ b, m.before.bindings.get? via = some b := by
  obtain ⟨before, later, rfl⟩ := List.append_of_mem hm
  exact h.split.1.bound hvia

end ProxyRun

/-! ### Sessions are runs -/

namespace Moment

variable {via : BindingRef} {w : World} {o : ObjectRef}

/-- The conversion of one object. -/
def ofObject (via : BindingRef) (o : ObjectRef) (w : World) {u : UserdataRef} {w' : World}
    (h : (proxyFor via o : Act Unit UserdataRef).outcome w = (.ok u, w')) : Moment via where
  before := w
  what := .value (.object o)
  values := [.userdata u]
  after := w'
  ran := by
    refine ⟨Unit, ?_⟩
    unfold Conversion.run toScript
    rw [outcome_bind, outcome_bind_ok h]
    rfl

end Moment

namespace ProxyRun

variable {via : BindingRef} {w w' w₁ w₂ : World} {ms : List (Moment via)}

/-- What happens meanwhile is a run without conversions. -/
theorem quiet (h : w.Meanwhile via w') : ProxyRun via w [] w' := .meanwhile h (.done w')

/-- A run in brackets that do not concern the binding. -/
theorem bracket (hrun : ProxyRun via w₁ ms w₂) (h : w.Meanwhile via w₁)
    (h' : w₂.Meanwhile via w') : ProxyRun via w ms w' := by
  have happend := hrun.append (quiet h')
  rw [List.append_nil] at happend
  exact .meanwhile h happend

end ProxyRun

namespace World

variable {via : BindingRef}

/-- New userdata is nothing to a binding. -/
theorem meanwhile_userdata (w : World) (x : Userdata) :
    w.Meanwhile via { w with userdata := w.userdata.push x } :=
  ⟨rfl, rfl, (w.grows_userdata x).fades⟩

/-- Neither is another binding. -/
theorem meanwhile_binding {w : World} (hvia : ∃ x, w.bindings.get? via = some x) (x : Binding) :
    w.Meanwhile via { w with bindings := w.bindings.push x } := by
  obtain ⟨y, hy⟩ := hvia
  refine ⟨?_, rfl, .of_eq rfl⟩
  rw [Store.get?_push_of_some x hy, hy]

/-- Disposal takes a target and does nothing else. -/
theorem meanwhile_disposed {w : World} {u : UserdataRef} {p : Proxy} (hp : w.proxy? u = some p) :
    w.Meanwhile via { w with userdata := w.userdata.set u (.proxy { p with target := none }) } :=
  ⟨rfl, rfl, fades_disposed hp⟩

/-- A new proxy of another binding is nothing to this one. -/
theorem meanwhile_withProxy (w : World) {via' : BindingRef} (hne : via ≠ via') (o : ObjectRef) :
    w.Meanwhile via (w.withProxy via' o) := by
  refine ⟨?_, rfl, (w.grows_withProxy via' o).fades⟩
  unfold withProxy
  simp only [Store.get?_set_ne _ _ hne]

end World

/-- **Whatever acts do is a run** of every binding that is there. -/
theorem Effects.proxyRun {l : License} {b : Bool} {w w' : World} (h : Effects l b w w')
    {via : BindingRef} (hvia : ∃ x, w.bindings.get? via = some x) :
    ∃ ms, ProxyRun via w ms w' := by
  induction h with
  | refl w => exact ⟨[], .done w⟩
  | trans _ _ ih ih' =>
    obtain ⟨ms, hms⟩ := ih hvia
    obtain ⟨ms', hms'⟩ := ih' (hms.bound hvia)
    exact ⟨ms ++ ms', hms.append hms'⟩
  -- A bracket changes things at its ends that are nothing to a binding.
  | hold _ _ ih | lent _ _ _ _ ih | called _ _ _ ih | resumed _ _ _ ih =>
    obtain ⟨ms, hms⟩ := ih hvia
    exact ⟨ms, hms.bracket (.of_eq rfl rfl rfl) (.of_eq rfl rfl rfl)⟩
  | carrier w | foreign w | proxy w => exact ⟨[], .quiet (w.meanwhile_userdata _)⟩
  | binding w c _ => exact ⟨[], .quiet (meanwhile_binding hvia _)⟩
  | disposed w u p hp => exact ⟨[], .quiet (meanwhile_disposed hp)⟩
  | cached w via' o u hc =>
    -- A conversion under another binding is nothing to this one.
    by_cases hne : via = via'
    · subst hne
      have hout : (proxyFor via o : Act Unit UserdataRef).outcome w =
          (.ok u, { w with journal := .wrapped via o u :: w.journal }) := by
        rw [outcome_proxyFor, hc]
      exact ⟨[.ofObject via o w hout], .convert (.ofObject via o w hout) (.done _)⟩
    · exact ⟨[], .quiet (.of_eq rfl rfl rfl)⟩
  | wrapped w via' o hc =>
    by_cases hne : via = via'
    · subst hne
      have hout : (proxyFor via o : Act Unit UserdataRef).outcome w =
          (.ok w.userdata.next, w.withProxy via o) := by
        rw [outcome_proxyFor, hc]
      exact ⟨[.ofObject via o w hout], .convert (.ofObject via o w hout) (.done _)⟩
    · exact ⟨[], .quiet (w.meanwhile_withProxy hne o)⟩
  | _ => exact ⟨[], .quiet (.of_eq rfl rfl rfl)⟩

/-- **Sessions are runs** of every binding that is there when they begin. -/
theorem World.after_proxyRun {via : BindingRef} (ops : List Op) {w : World}
    (hvia : ∃ x, w.bindings.get? via = some x) : ∃ ms, ProxyRun via w ms (w.after ops) := by
  refine (after_induction (I := fun v => ∃ ms, ProxyRun via w ms v)
    (fun v op hv hop hrun => ?_) (Op.allWithin_all true ops) w.within_all ⟨[], .done w⟩).2
  obtain ⟨ms, hms⟩ := hrun
  obtain ⟨ms', hms'⟩ := (step_effects hv hop).proxyRun (hms.bound hvia)
  exact ⟨ms ++ ms', hms.append (hms'.bracket (.of_eq rfl rfl rfl) (.of_eq rfl rfl rfl))⟩

/-! ### The result -/

/-- **One live proxy for each object.** In every run of a binding,

* what stands where an object stood is an undisposed proxy of that object,
* what was given for two different objects is never raw-equal, and
* what was given for an object is raw-equal to what one conversion gave for it, within that
  conversion and in every later one, as long as the proxy is held and not disposed and the object
  lives. -/
theorem one_live_proxy {via : BindingRef} {w w' : World} {ms : List (Moment via)}
    (hrun : ProxyRun via w ms w') (hvia : ∃ b, w.bindings.get? via = some b) :
    (∀ m ∈ ms, ∀ o v, m.Turns o v → ∃ u, v = .userdata u ∧ m.after.Targets u o) ∧
    (∀ m ∈ ms, ∀ m' ∈ ms, ∀ o o' v v', m.Turns o v → m'.Turns o' v' → o.same o' = false →
      v.rawEquals v' = false) ∧
    (∀ m ∈ ms, m.Owned → ∀ o o' v v', m.Turns o v → m.Turns o' v' → o.same o' = true →
      v.rawEquals v' = true) ∧
    ∀ before m between m' later, ms = before ++ m :: (between ++ m' :: later) →
      (∀ k ∈ m :: (between ++ [m']), k.Owned) →
      ∀ o u, m.Turns o (.userdata u) → (∀ k ∈ between ++ [m'], k.before.InUse o u) →
        ∀ o' v', m'.Turns o' v' → o.same o' = true →
          (ScriptValue.userdata u).rawEquals v' = true := by
  refine ⟨fun m hm o v h => h.targets (hrun.bound_of_mem hvia hm), ?_, ?_, ?_⟩
  -- Distinct proxies are not raw-equal, so it is enough that one value does not stand for both.
  · intro m hm m' hm' o o' v v' h h' hne
    obtain ⟨u, rfl, ht⟩ := h.targets (hrun.bound_of_mem hvia hm)
    obtain ⟨u', rfl, ht'⟩ := h'.targets (hrun.bound_of_mem hvia hm')
    refine beq_false_of_ne fun heq => ?_
    subst heq
    -- One userdata value given twice: by the later conversion it still targets what it did.
    have hsame : o.same o' = true := by
      rcases hrun.ordered hm hm' with hf | hf
      · exact ht.same_of_fades hf ht'
      · exact same_iff.mpr (same_iff.mp (ht'.same_of_fades hf ht)).symm
    rw [hne] at hsame
    cases hsame
  -- Within one conversion both are the entry of the object.
  · intro m hm howned o o' v v' h h' hsame
    have hb := hrun.bound_of_mem hvia hm
    obtain ⟨u, rfl, -⟩ := h.targets hb
    obtain ⟨u', rfl, -⟩ := h'.targets hb
    exact beq_iff_eq.mpr ((h.entry howned hb).unique (h'.entry howned hb) (same_iff.mp hsame))
  · rintro before m between m' later rfl howned o u h huse o' v' h' hsame
    obtain ⟨hbefore, hafter⟩ := hrun.split
    obtain ⟨hbetween, -⟩ := hafter.split
    have hb := hbefore.bound hvia
    have hb' := hbetween.bound (m.bound hb)
    -- The proxy has its entry after the first conversion, and keeps it up to the second one.
    have he : m'.before.Entry via o u := by
      refine hbetween.entry (h.entry (howned m List.mem_cons_self) hb) fun k hk => ?_
      have hk' := List.mem_append_left [m'] hk
      exact ⟨howned k (List.mem_cons_of_mem _ hk'), huse k hk'⟩
    have hm' : m' ∈ between ++ [m'] := List.mem_append_right _ List.mem_cons_self
    have howned' := howned m' (List.mem_cons_of_mem _ hm')
    obtain ⟨u', rfl, -⟩ := h'.targets hb'
    -- The second conversion keeps the entry as well, and what it gives is the entry.
    have hkept := m'.entry howned' he (huse m' hm')
    exact beq_iff_eq.mpr (hkept.unique (h'.entry howned' hb') (same_iff.mp hsame))

/-! ### An object that is converted twice -/

namespace OneProxy

/-- A point. -/
def point : ObjectRef := ⟨⟨0⟩, ⟨⟨0⟩, "Point"⟩⟩

/-- A world with an object in a variable. -/
def pointWorld : World :=
  { World.start .default fun r => r.index with
    objects := Store.empty.push ⟨point.cls, .slots [], .free⟩
    vars := [("o", .object point)] }

/-- The object is wrapped. -/
def wrapping : Moment ⟨0⟩ := .make ⟨0⟩ (.value (.object point)) pointWorld

/-- The world once the proxy is in a variable as well. -/
def keptWorld : World :=
  { wrapping.after with vars := [("p", .script (.userdata ⟨0⟩)), ("o", .object point)] }

/-- The object is passed inside an array. -/
def passing : Moment ⟨0⟩ := .make ⟨0⟩ (.values [.array [.object point]]) keptWorld

/-- The conversion gives the first userdata value. -/
theorem wrapping_values : wrapping.values = [.userdata ⟨0⟩] := by decide +kernel

/-- The point lives in both worlds. -/
theorem lives_point : pointWorld.Lives point.ref.handle ∧ keptWorld.Lives point.ref.handle :=
  ⟨⟨by decide +kernel, by decide +kernel⟩, by decide +kernel, by decide +kernel⟩

/-- Its proxy is in use once it is in a variable. -/
theorem inUse_point : keptWorld.InUse point ⟨0⟩ where
  object := lives_point.2
  held := ⟨by decide +kernel, by decide +kernel⟩
  undisposed p hp := by
    have hsome : (keptWorld.proxy? ⟨0⟩).map (fun p => p.target.isSome) = some true := by
      decide +kernel
    rw [hp, Option.map_some] at hsome
    exact Option.isSome_iff_ne_none.mp (Option.some.inj hsome)

/-- What a point holds are itself and its class. -/
theorem point_of_held {a : Ref .object} (h : a.handle ∈ handles point) : a = point.ref := by
  rcases List.mem_cons.mp h with h | h
  · exact Ref.handle_injective h
  · cases List.mem_singleton.mp h

/-- Only the point is converted, and every object has an address of its own. -/
theorem owned_point {m : Moment ⟨0⟩} (hitems : HostValue.heldAll m.what.items = handles point)
    (hlives : m.before.Lives point.ref.handle) (hlayout : m.before.layout = fun r => r.index) :
    m.Owned where
  lives a ha := by
    obtain rfl : a = point.ref := point_of_held (hitems ▸ ha)
    exact hlives
  apart a b _ _ h := by
    rw [hlayout] at h
    exact congrArg Ref.mk h

end OneProxy

open OneProxy in
/-- An object is wrapped, and the proxy kept; what is passed for the object in an array is the
proxy. -/
theorem one_live_proxy_point :
    (∃ b, pointWorld.bindings.get? ⟨0⟩ = some b) ∧
    ProxyRun ⟨0⟩ pointWorld [wrapping, passing] passing.after ∧
    ∃ v, passing.Turns point v ∧ (ScriptValue.userdata ⟨0⟩).rawEquals v = true := by
  have hvia : ∃ b, pointWorld.bindings.get? ⟨0⟩ = some b := ⟨_, rfl⟩
  have hrun : ProxyRun ⟨0⟩ pointWorld [wrapping, passing] passing.after :=
    .convert wrapping ((ProxyRun.convert passing (.done _)).bracket (.of_eq rfl rfl rfl)
      (.of_eq rfl rfl rfl))
  refine ⟨hvia, hrun, _, ⟨0, [0], .array [.object point], rfl, rfl, by simp [Readable], rfl⟩, ?_⟩
  -- The proxy that was kept is what the first conversion gave.
  have hturns : wrapping.Turns point (.userdata ⟨0⟩) := by
    refine ⟨0, [], .object point, rfl, rfl, nofun, ?_⟩
    rw [wrapping_values]
    rfl
  refine (one_live_proxy hrun hvia).2.2.2 [] wrapping [] passing [] rfl ?_ point ⟨0⟩ hturns ?_
    point _ ⟨0, [0], .array [.object point], rfl, rfl, by simp [Readable], rfl⟩ rfl
  · intro k hk
    rcases List.mem_cons.mp hk with rfl | hk
    · exact owned_point rfl lives_point.1 rfl
    · rw [List.mem_singleton.mp hk]
      exact owned_point rfl lives_point.2 rfl
  · intro k hk
    rw [List.mem_singleton.mp hk]
    exact inUse_point

end ScriptHost
