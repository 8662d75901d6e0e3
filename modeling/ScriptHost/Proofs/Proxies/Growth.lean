import ScriptHost.Convert.ToScript
import ScriptHost.Proofs.Act.Outcome
import ScriptHost.Proofs.Liveness

/-!
# Conversions only add

A conversion to script makes tables and proxies and leaves what was there as it is: `World.Grows`.
So what lived goes on living while a conversion runs, whatever it holds for a while.

`toScript_array`, `toScript_object` and `toScriptEach_cons` take a conversion apart; every other
fact about conversions is an induction over the nesting of the value with these three.
-/

set_option autoImplicit false

namespace ScriptHost

/-! ### A world that only grows -/

namespace World

/-- Whatever was there is as it was, except the cache of a binding and the journal. -/
structure Grows (w w' : World) : Prop where
  tables : ∀ t x, w.tables.get? t = some x → w'.tables.get? t = some x
  userdata : ∀ u x, w.userdata.get? u = some x → w'.userdata.get? u = some x
  bindings : ∀ b x, w.bindings.get? b = some x → ∃ x', w'.bindings.get? b = some x'
  functions : w'.functions = w.functions
  objects : w'.objects = w.objects
  classes : w'.classes = w.classes
  coroutines : w'.coroutines = w.coroutines
  held : w'.held = w.held
  vars : w'.vars = w.vars
  frames : w'.frames = w.frames
  globals : w'.globals = w.globals
  layout : w'.layout = w.layout

section Grows

variable {w w' w'' : World}

theorem Grows.refl (w : World) : w.Grows w :=
  ⟨fun _ _ h => h, fun _ _ h => h, fun _ x h => ⟨x, h⟩, rfl, rfl, rfl, rfl, rfl, rfl, rfl, rfl, rfl⟩

/-- A world that grew and grows has grown. -/
theorem Grows.trans (h : w.Grows w') (h' : w'.Grows w'') : w.Grows w'' where
  tables t x hx := h'.tables t x (h.tables t x hx)
  userdata u x hx := h'.userdata u x (h.userdata u x hx)
  bindings b x hx := by
    obtain ⟨x', hx'⟩ := h.bindings b x hx
    exact h'.bindings b x' hx'
  functions := h'.functions.trans h.functions
  objects := h'.objects.trans h.objects
  classes := h'.classes.trans h.classes
  coroutines := h'.coroutines.trans h.coroutines
  held := h'.held.trans h.held
  vars := h'.vars.trans h.vars
  frames := h'.frames.trans h.frames
  globals := h'.globals.trans h.globals
  layout := h'.layout.trans h.layout

/-- A world grows also while something is held. -/
theorem Grows.of_holding {hs : List Handle}
    (h : ({ w with held := hs ++ w.held } : World).Grows w') :
    w.Grows { w' with held := w.held } :=
  { h with held := rfl }

/-- Things that were there are there, and hold what they held. -/
theorem Grows.thing (h : w.Grows w') {a : Handle} (ha : a ∈ w.things) :
    a ∈ w'.things ∧ w'.contents a = w.contents a := by
  obtain ⟨kind, index⟩ := a
  rw [mem_things] at ha ⊢
  -- Only the stores of tables and userdata get longer.
  cases kind with
  | table =>
    obtain ⟨x, hx⟩ := ha
    have hx' := h.tables _ x hx
    exact ⟨⟨x, hx'⟩, congrArg handles (hx'.trans hx.symm)⟩
  | userdata =>
    obtain ⟨x, hx⟩ := ha
    have hx' := h.userdata _ x hx
    exact ⟨⟨x, hx'⟩, congrArg handles (hx'.trans hx.symm)⟩
  | function => simpa only [contents, h.functions, and_true] using ha
  | object => simpa only [contents, h.objects, and_true] using ha
  | cls => simpa only [contents, h.classes, and_true] using ha
  | coroutine => simpa only [contents, h.coroutines, and_true] using ha
  | binding => exact ⟨ha, rfl⟩

/-- A world that grows extends what there was: the roots are the same, and so are the things. -/
theorem Grows.extends (h : w.Grows w') : w.Extends w' := by
  refine .of_roots (fun x hx => ?_) fun a ha => h.thing ha
  unfold roots at hx ⊢
  rw [h.held, h.vars, h.frames, h.globals]
  exact hx

end Grows

end World

/-! ### Conversions only add -/

namespace World

/-- A new proxy adds a userdata value, and changes the cache. -/
theorem grows_withProxy (w : World) (via : BindingRef) (o : ObjectRef) :
    w.Grows (w.withProxy via o) where
  tables _ _ hx := hx
  userdata u x hx := Store.get?_push_of_some _ hx
  bindings b x hx := by
    unfold withProxy
    simp only [Store.get?_set, hx]
    split
    · exact ⟨_, rfl⟩
    · exact ⟨_, rfl⟩
  functions := rfl
  objects := rfl
  classes := rfl
  coroutines := rfl
  held := rfl
  vars := rfl
  frames := rfl
  globals := rfl
  layout := rfl

/-- A new table adds to the tables. -/
theorem grows_table (w : World) (t : Table) : w.Grows { w with tables := w.tables.push t } :=
  { Grows.refl w with tables := fun _ _ hx => Store.get?_push_of_some _ hx }

/-- A new userdata value adds to the userdata. -/
theorem grows_userdata (w : World) (x : Userdata) :
    w.Grows { w with userdata := w.userdata.push x } :=
  { Grows.refl w with userdata := fun _ _ hx => Store.get?_push_of_some _ hx }

end World

namespace Act

variable {ε : Type} {via : BindingRef} {w w' : World}

/-- An object always gets its proxy. -/
theorem proxyFor_ok (via : BindingRef) (o : ObjectRef) (w : World) :
    ∃ u w', (proxyFor via o : Act ε UserdataRef).outcome w = (.ok u, w') ∧ w.Grows w' := by
  rw [outcome_proxyFor]
  cases w.cachedProxy? via o with
  | some u => exact ⟨u, _, rfl, { World.Grows.refl w with }⟩
  | none => exact ⟨_, _, rfl, w.grows_withProxy via o⟩

/-- An array is converted item by item, and the table is made at the end. -/
theorem toScript_array {items : List HostValue} {s : ScriptValue}
    (h : (toScript via (.array items) : Act ε ScriptValue).outcome w = (.ok s, w')) :
    ∃ vs w₁, (toScriptEach via items (HostValue.heldAll items) : Act ε _).outcome w = (.ok vs, w₁) ∧
      s = .table w₁.tables.next ∧ w' = { w₁ with tables := w₁.tables.push (.ofSequence vs) } := by
  unfold toScript at h
  rcases hvs : (toScriptEach via items (HostValue.heldAll items) : Act ε _).outcome w with
    ⟨e | vs, w₁⟩
  · rw [outcome_bind_error hvs] at h
    cases h
  · rw [outcome_bind_ok hvs] at h
    cases h
    exact ⟨vs, w₁, rfl, rfl, rfl⟩

/-- An object is converted to its proxy. -/
theorem toScript_object {o : ObjectRef} {s : ScriptValue}
    (h : (toScript via (.object o) : Act ε ScriptValue).outcome w = (.ok s, w')) :
    ∃ u, (proxyFor via o : Act ε UserdataRef).outcome w = (.ok u, w') ∧ s = .userdata u := by
  unfold toScript at h
  obtain ⟨u, w₁, hu, -⟩ := proxyFor_ok (ε := ε) via o w
  rw [outcome_bind_ok hu] at h
  cases h
  exact ⟨u, hu, rfl⟩

/-- An item is converted while it and those after it are held, and those after it while what it gave
is held. -/
theorem toScriptEach_cons {x : HostValue} {xs : List HostValue} {pending : List Handle}
    {vs : List ScriptValue}
    (h : (toScriptEach via (x :: xs) pending : Act ε _).outcome w = (.ok vs, w')) :
    ∃ v w₁ rest w₂,
      (toScript via x : Act ε ScriptValue).outcome { w with held := pending ++ w.held } =
        (.ok v, w₁) ∧
      (toScriptEach via xs (pending.drop (HostValue.held x).length) : Act ε _).outcome
        { w₁ with held := handles v ++ w.held } = (.ok rest, w₂) ∧
      vs = v :: rest ∧ w' = { w₂ with held := w.held } := by
  unfold toScriptEach at h
  rw [outcome_bind, outcome_holding] at h
  rcases hv : (toScript via x : Act ε ScriptValue).outcome { w with held := pending ++ w.held } with
    ⟨e | v, w₁⟩
  · rw [hv] at h
    cases h
  · rw [hv] at h
    simp only [outcome_bind, outcome_holding] at h
    rcases hrest : (toScriptEach via xs (pending.drop (HostValue.held x).length) : Act ε _).outcome
        { w₁ with held := handles v ++ w.held } with ⟨e | rest, w₂⟩
    · rw [hrest] at h
      cases h
    · rw [hrest] at h
      cases h
      exact ⟨v, w₁, rest, w₂, rfl, hrest, rfl, rfl⟩

mutual

/-- **A conversion never fails**, and the world only grows. -/
theorem toScript_ok (via : BindingRef) : ∀ (x : HostValue) (w : World),
    ∃ s w', (toScript via x : Act ε ScriptValue).outcome w = (.ok s, w') ∧ w.Grows w'
  | .null, w | .bool _, w | .int _, w | .uint _, w | .float _, w | .string _, w | .script _, w => by
    unfold toScript
    exact ⟨_, w, rfl, .refl w⟩
  | .array items, w => by
    obtain ⟨vs, w₁, hvs, hg⟩ := toScriptEach_ok via items (HostValue.heldAll items) w
    unfold toScript
    rw [outcome_bind_ok hvs]
    exact ⟨_, _, rfl, hg.trans (w₁.grows_table _)⟩
  | .object o, w => by
    obtain ⟨u, w₁, hu, hg⟩ := proxyFor_ok via o w
    unfold toScript
    rw [outcome_bind_ok hu]
    exact ⟨_, _, rfl, hg⟩
  | .cls c, w => by
    unfold toScript
    exact ⟨_, _, rfl, w.grows_userdata _⟩

theorem toScriptEach_ok (via : BindingRef) : ∀ (xs : List HostValue) (pending : List Handle)
    (w : World), ∃ vs w', (toScriptEach via xs pending : Act ε _).outcome w = (.ok vs, w') ∧
      w.Grows w'
  | [], _, w => by
    unfold toScriptEach
    exact ⟨_, w, rfl, .refl w⟩
  | x :: xs, pending, w => by
    obtain ⟨v, w₁, hv, hg⟩ := toScript_ok via x { w with held := pending ++ w.held }
    obtain ⟨vs, w₂, hvs, hg'⟩ := toScriptEach_ok via xs (pending.drop (HostValue.held x).length)
      { w₁ with held := handles v ++ w.held }
    refine ⟨v :: vs, { w₂ with held := w.held }, ?_, hg.of_holding.trans (.of_holding hg')⟩
    unfold toScriptEach
    rw [outcome_bind, outcome_holding, hv]
    simp only [outcome_bind, outcome_holding, hvs]
    rfl

end

/-- A conversion that took place has only added. -/
theorem toScript_grows {x : HostValue} {s : ScriptValue}
    (h : (toScript via x : Act ε ScriptValue).outcome w = (.ok s, w')) : w.Grows w' := by
  obtain ⟨s', w₁, h', hg⟩ := toScript_ok (ε := ε) via x w
  rw [h] at h'
  cases h'
  exact hg

/-- So have those of several values. -/
theorem toScriptEach_grows {xs : List HostValue} {pending : List Handle} {vs : List ScriptValue}
    (h : (toScriptEach via xs pending : Act ε _).outcome w = (.ok vs, w')) : w.Grows w' := by
  obtain ⟨vs', w₁, h', hg⟩ := toScriptEach_ok (ε := ε) via xs pending w
  rw [h] at h'
  cases h'
  exact hg

end Act

end ScriptHost
