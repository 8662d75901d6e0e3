import ScriptHost.Proofs.Conversion.InTurn
import ScriptHost.Proofs.Proxies.Equality

/-!
# During conversions

While conversions run that began in a world `w₀`, what was there in `w₀` stays as it is: objects are added,
and only these are filled. `World.During w₀ w` says that `w` is met on the way, and `Act.Steady w₀ m P`
that an act stays on it and gives what satisfies `P`.

So a conversion looks at what was there in the beginning. The exception would be what proxies reach, since
it depends on what is alive: but nothing dies as long as it is held, and nothing that is in hand was dead
(`World.During.proxyTarget?_eq`).
-/

set_option autoImplicit false

namespace ScriptHost

open Act

/-! ### Writable objects -/

namespace Object

/-- Nobody has borrowed the object, and it has slots. -/
def Writable (x : Object) : Prop := x.refusal? true .slots = none

/-- A new object is writable. -/
theorem writable_fresh (c : ClassRef) (s : Slots) : (⟨c, .slots s, .free⟩ : Object).Writable := rfl

/-- Writing slots leaves an object writable. -/
theorem Writable.write {x : Object} (h : x.Writable) (s : Slots) :
    ({ x with payload := .slots s } : Object).Writable := by
  unfold Writable refusal? at h ⊢
  split at h
  · cases h
  · next hfree =>
    have hfree' : ¬ (lend { x with payload := .slots s } true).isNone = true := hfree
    rw [if_neg hfree']
    rfl

end Object

namespace World

variable {w₀ w w' : World}

/-- **Objects that were filled are writable**, as long as all of them were. -/
theorem Fills.writable {n : Nat} (h : w.Fills n w')
    (hw : ∀ r x, n ≤ r.index → w.objects.get? r = some x → x.Writable) :
    ∀ r x, n ≤ r.index → w'.objects.get? r = some x → x.Writable := by
  induction h with
  | refl => exact hw
  | trans _ _ ih ih' => exact ih' (ih hw)
  | constructed w c =>
    intro r x hr hx
    rcases Store.get?_push_cases hx with ⟨-, rfl⟩ | hx
    · exact Object.writable_fresh c _
    · exact hw r x hr hx
  | @assigned w via c m o v s ho =>
    intro r x hr hx
    -- A setter that is refused changes no object, and another one writes slots only.
    rw [outcome_runSetter_some] at hx
    cases hrefused : ((w.noted (.setter via c m v)).object o).refusal? true .slots with
    | some e =>
      rw [hrefused] at hx
      exact hw r x hr hx
    | none =>
      rw [hrefused] at hx
      cases s with
      | slot slot =>
        rcases Store.get?_set_cases hx with rfl | hx
        · exact Object.Writable.write hrefused _
        · exact hw r x hr hx
      | refuse message => exact hw r x hr hx

/-- Natural values depend on what proxies reach only. -/
theorem naturalValue_congr (h : ∀ u, w'.proxyTarget? u = w.proxyTarget? u) (v : ScriptValue) :
    w'.naturalValue v = w.naturalValue v := by
  cases v with
  | userdata u => simp only [naturalValue, h]
  | _ => rfl

/-- So do natural types. -/
theorem naturalType_congr (h : ∀ u, w'.proxyTarget? u = w.proxyTarget? u) (v : ScriptValue) :
    w'.naturalType v = w.naturalType v := by
  cases v with
  | userdata u => simp only [naturalType, h]
  | _ => rfl

/-- A member holds the type that it accepts. -/
theorem AllSafe.accepted {m : Member} (hm : w₀.AllSafe m) {t : HostType} {s : Setter}
    (ha : m.accepts? = some (t, s)) : w₀.AllSafe t := by
  cases m with
  | method x => cases ha
  -- An indexed property accepts nothing, and any other one accepts its type.
  | property p =>
    by_cases hindexer : p.isIndexer = true
    · cases (if_pos hindexer).symm.trans ha
    · obtain ⟨s', -, heq⟩ := Option.map_eq_some_iff.mp ((if_neg hindexer).symm.trans ha)
      cases heq
      exact fun x hx => hm x (List.mem_append_left _ hx)
  | field f =>
    obtain ⟨s', -, heq⟩ := Option.map_eq_some_iff.mp ha
    cases heq
    exact hm

/-! ### Worlds on the way -/

/-- **On the way from a world**: what was not dead is in hand, and objects were added and filled. -/
structure During (w₀ w : World) : Prop where
  since : w₀.Since w
  fills : w₀.Fills w₀.objects.size { w with held := w₀.held }
  /-- What was held in the beginning is held. -/
  held : ∀ h ∈ w₀.held, h ∈ w.held

namespace During

/-- A conversion begins where it begins. -/
theorem refl (hw : w.Closed) : w.During w := ⟨.refl hw, .refl w, fun _ h => h⟩

section

variable (h : w₀.During w)
include h

/-- Nothing but objects, the journal and what is held is different. -/
theorem rest : w = { w₀ with objects := w.objects, journal := w.journal, held := w.held } :=
  congrArg (fun v : World => { v with held := w.held }) h.fills.rest

/-- Classes are as they were. -/
theorem classes_eq : w.classes = w₀.classes := by rw [h.rest]

/-- A class is looked up as before. -/
theorem cls_eq (c : ClassRef) : w.cls c = w₀.cls c := by rw [h.rest]; rfl

/-- A table is looked up as before. -/
theorem table_eq (t : TableRef) : w.table t = w₀.table t := by rw [h.rest]; rfl

/-- A binding is looked up as before. -/
theorem binding_eq (b : BindingRef) : w.binding b = w₀.binding b := by rw [h.rest]; rfl

/-- A proxy stands for what it stood for. -/
theorem proxy?_eq (u : UserdataRef) : w.proxy? u = w₀.proxy? u := by rw [h.rest]; rfl

/-- No object goes away. -/
theorem size_le : w₀.objects.size ≤ w.objects.size := h.fills.size_le

/-- Objects that were added on the way can be filled. -/
theorem writable {o : ObjectRef} (ho : w₀.objects.size ≤ o.ref.index) : (w.object o).Writable := by
  have hnone (r : Ref .object) (x : Object) (hr : w₀.objects.size ≤ r.index)
      (hx : w₀.objects.get? r = some x) : x.Writable :=
    absurd (Array.getElem?_eq_some_iff.mp hx).1 (Nat.not_lt.mpr hr)
  unfold World.object
  cases hx : w.objects.get? o.ref with
  | none => exact Object.writable_fresh o.cls []
  | some x => exact h.fills.writable hnone o.ref x ho hx

/-- What was alive is alive. -/
theorem extended : w₀.Extends w := by
  refine .of_roots (fun x hx => ?_) fun a ha => ?_
  · rw [h.rest]
    exact mem_roots.mpr ((mem_roots.mp hx).imp_left (h.held x))
  · obtain ⟨kind, index⟩ := a
    rw [mem_things] at ha ⊢
    rw [h.rest]
    -- Only the store of objects is another one, and it starts with the same objects.
    cases kind with
    | object =>
      obtain ⟨x, hx⟩ := ha
      have hlt : index < w₀.objects.size := (Array.getElem?_eq_some_iff.mp hx).1
      have hsame := h.fills.objects (Nat.le_refl _) (r := ⟨index⟩) hlt
      exact ⟨⟨x, hsame.trans hx⟩, congrArg handles hsame⟩
    | _ => exact ⟨ha, rfl⟩

/-- **What proxies reach they reached in the beginning**, and they go on reaching it. -/
theorem proxyTarget?_eq (hw₀ : w₀.Faithful) (u : UserdataRef) :
    w.proxyTarget? u = w₀.proxyTarget? u := by
  refine Option.ext fun t => ⟨fun ht => ?_, fun ht => ?_⟩
  · obtain ⟨p, hp, -, -⟩ := proxyTarget?_eq_some.mp ht
    exact h.since.proxyTarget? hw₀ (h.proxy?_eq u ▸ hp) ht
  · obtain ⟨p, hp, htarget, halive⟩ := proxyTarget?_eq_some.mp ht
    refine proxyTarget?_eq_some.mpr ⟨p, (h.proxy?_eq u).trans hp, htarget, fun o ho => ?_⟩
    exact h.extended.alive (hw₀.has_of_proxy hp (ho ▸ htarget)).made (halive o ho)

/-- Something more is held. -/
theorem keeping {hs : List Handle} (hhs : ∀ x ∈ hs, w₀.Safe x) :
    w₀.During { w with held := hs ++ w.held } where
  since := h.since.keeping hhs
  fills := h.fills
  held x hx := List.mem_append_right hs (h.held x hx)

end

end During

end World

/-! ### Steady acts -/

namespace Act

/-- **The act stays on the way**, and what it gives is as promised. -/
structure Steady {ε α : Type} (w₀ : World) (m : Act ε α) (P : α → Prop) : Prop where
  during : ∀ w, w₀.During w → w₀.During (m.outcome w).2
  gives : ∀ w a w', w₀.During w → m.outcome w = (.ok a, w') → P a

namespace Steady

variable {ε α : Type} {w₀ : World} {m : Act ε α} {P : α → Prop}

/-- An act that revives nothing and fills new objects only. -/
theorem of [Holds ε] (hs : Sparing w₀ m P) (hf : Filling w₀.objects.size m) : Steady w₀ m P where
  during w h := by
    have hfills := hf w h.size_le
    exact ⟨(hs w h.since).1, h.fills.trans (hfills.held w₀.held), fun x hx =>
      hfills.held_eq ▸ h.held x hx⟩
  gives _ _ _ h hout := (hs.ok h.since hout).2

/-- Errors may be put in other words. -/
theorem mapError {ε' : Type} (f : World → ε → ε') (h : Steady w₀ m P) :
    Steady w₀ (Act.mapError f m) P where
  during w hw := by
    have hsame : ((Act.mapError f m).outcome w).2 = (m.outcome w).2 := by
      rw [outcome_mapError]
      rcases m.outcome w with ⟨_ | _, _⟩ <;> rfl
    exact hsame ▸ h.during w hw
  gives w a w' hw hout := h.gives w a w' hw (outcome_mapError_eq_ok hout)

/-- A constructor gives an object that was not there in the beginning. -/
theorem construct {c : ClassRef} (hc : w₀.AllSafe c) :
    Steady w₀ (Act.construct c) fun o => w₀.AllSafe o ∧ w₀.objects.size ≤ o.ref.index where
  during := (of (.construct hc) (.construct c)).during
  gives _ _ _ h hout :=
    ⟨((Sparing.construct hc).ok h.since hout).2, Filling.construct_fresh h.size_le hout⟩

end Steady

/-- A conversion by type makes new objects only, at any depth of nesting, so it revives nothing. -/
theorem sparing_convertWith {w₀ : World} (via : BindingRef) (n : Nat) (t : HostType) (v : ScriptValue)
    (ht : w₀.AllSafe t) (hv : w₀.AllSafe v) :
    Sparing w₀ (convertWith (buildUpTo via n) t v) w₀.AllSafe :=
  .convertWith (fun _ _ hc ht => .buildUpTo via n hc ht) ht hv

/-- It fills new objects only. -/
theorem filling_convertWith (via : BindingRef) (n k : Nat) (t : HostType) (v : ScriptValue) :
    Filling k (convertWith (buildUpTo via n) t v) :=
  .convertWith (.buildUpTo via n) t v

namespace Steady

variable {w₀ : World} {t : HostType} {v : ScriptValue} (ht : w₀.AllSafe t) (hv : w₀.AllSafe v)
include ht hv

/-- A conversion by type stays on the way. -/
theorem convertWith (via : BindingRef) (n : Nat) :
    Steady w₀ (Act.convertWith (buildUpTo via n) t v) w₀.AllSafe :=
  .of (sparing_convertWith via n t v ht hv) (filling_convertWith via n _ t v)

omit ht in
/-- A key is assigned to an object that was not there in the beginning. -/
theorem assignKey {c : ClassRef} (hc : w₀.AllSafe c) {o : ObjectRef} (hsafe : w₀.AllSafe o)
    (ho : w₀.objects.size ≤ o.ref.index) (via : BindingRef) (n : Nat) (k : MemberKey) :
    Steady w₀ (Act.assignKey (Act.convertWith (buildUpTo via n)) via c (some o) k v) fun _ => True :=
  .of (.assignKey (sparing_convertWith via n) via hc (World.AllSafe.some_iff.mpr hsafe) k hv)
    (.assignKey (filling_convertWith via n _) via c ho k v)

/-- So does the conversion to host. -/
theorem toHost (via : BindingRef) : Steady w₀ (Act.toHost via t v) w₀.AllSafe :=
  .of (.toHost via ht hv) (.toHost via t v)

end Steady

/-- Conversions in turn stay on the way. -/
theorem InTurn.during {w₀ w w' : World} {via : BindingRef} {element : HostType}
    {vs : List ScriptValue} {xs : List HostValue} (h : InTurn via element w vs xs w')
    (hw : w₀.During w) (helement : w₀.AllSafe element) (hvs : ∀ v ∈ vs, w₀.AllSafe v) :
    w₀.During w' := by
  induction h with
  | nil => exact hw
  | cons hv _ ih =>
    obtain ⟨hfirst, hrest⟩ := List.forall_mem_cons.mp hvs
    have hnext := (Steady.toHost helement hfirst via).during _ hw
    rw [hv] at hnext
    exact ih hnext hrest

end Act

end ScriptHost
