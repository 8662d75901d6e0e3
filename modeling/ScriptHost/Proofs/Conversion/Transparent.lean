import ScriptHost.Proofs.Conversion.Stable
import ScriptHost.Proofs.Proxies.Equality
import ScriptHost.Proofs.Tables.RawEquality

/-!
# Values that pass through

Where any value is accepted a script value becomes the host value it naturally stands for, and this goes
back into script. Most values come back as they are. A proxy that reaches something does not pass
through: its object or its class goes to the host, and a proxy of that comes back, which is equal to the
first one but need not be the same handle. Which proxy comes back is up to the cache of the binding.

All of it follows the natural value: `toScript_of_reachesNothing` is the case in which the value itself
comes back, and in the other two what comes back meets what went in (`World.Meet`).
-/

set_option autoImplicit false

namespace ScriptHost

namespace World

variable {w w' : World} {via : BindingRef} {u : UserdataRef} {o : ObjectRef} {v : ScriptValue}

/-- The value is no proxy, or one that was disposed or whose object has died. -/
def ReachesNothing (w : World) (v : ScriptValue) : Prop :=
  ∀ u p, v = .userdata u → w.proxy? u = some p →
    p.target = none ∨ ∃ o, p.target = some (.object o) ∧ w.alive o.ref.handle = false

/-- The value is a proxy of a class, or a proxy of a living object for which the cache of the binding has
not this one. -/
inductive Rewraps (w : World) (via : BindingRef) : ScriptValue → Prop
  | ofClass {u : UserdataRef} {c : ClassRef} (ht : w.proxyTarget? u = some (.type c)) :
    Rewraps w via (.userdata u)
  | ofObject {u : UserdataRef} {o : ObjectRef} (ht : w.proxyTarget? u = some (.object o))
    (hother : (w.binding via).cache.find? (w.layout o.ref) ≠ some u) : Rewraps w via (.userdata u)

/-- The same in terms of what is reached: no proxy that is the value leads anywhere. -/
theorem reachesNothing_iff :
    w.ReachesNothing v ↔ ∀ u, v = .userdata u → w.proxyTarget? u = none := by
  unfold ReachesNothing
  refine forall_congr' fun u => ?_
  rw [forall_comm]
  refine forall_congr' fun _ => ?_
  rw [Option.eq_none_iff_forall_not_mem]
  constructor
  · intro h t ht
    obtain ⟨p, hp, htarget, halive⟩ := proxyTarget?_eq_some.mp ht
    rcases h p hp with hnone | ⟨o, ho, hdead⟩
    · cases htarget.symm.trans hnone
    · obtain rfl := Option.some.inj (htarget.symm.trans ho)
      cases (halive o rfl).symm.trans hdead
  · intro h p hp
    cases htarget : p.target with
    | none => exact .inl rfl
    | some t =>
      -- What it stands for would be reached, unless it is an object that has died.
      by_contra! hne
      refine h t (proxyTarget?_eq_some.mpr ⟨p, hp, htarget, fun o ho => ?_⟩)
      exact Bool.eq_true_of_not_eq_false (hne.2 o (congrArg some ho))

/-- Whoever reaches nothing is not wrapped again. -/
theorem ReachesNothing.not_rewraps (hv : w.ReachesNothing v) : ¬ w.Rewraps via v := by
  rw [reachesNothing_iff] at hv
  rintro (⟨ht⟩ | ⟨ht, -⟩)
  · cases (hv _ rfl).symm.trans ht
  · cases (hv _ rfl).symm.trans ht

/-- Whoever reaches something does not reach nothing. -/
theorem not_reachesNothing {t : Target} (ht : w.proxyTarget? u = some t) :
    ¬ w.ReachesNothing (.userdata u) := by
  intro hv
  cases (reachesNothing_iff.mp hv u rfl).symm.trans ht

/-- A proxy of an object is wrapped again unless it is the entry of the cache. -/
theorem not_rewraps_iff_find? (ht : w.proxyTarget? u = some (.object o)) :
    ¬ w.Rewraps via (.userdata u) ↔
      (w.binding via).cache.find? (w.layout o.ref) = some u := by
  rw [not_iff_comm]
  refine ⟨fun hother => .ofObject ht hother, ?_⟩
  rintro (⟨ht'⟩ | ⟨ht', hother⟩)
  · cases ht.symm.trans ht'
  · obtain rfl := Target.object.inj (Option.some.inj (ht.symm.trans ht'))
    exact hother

/-- A proxy that lives is what the cache gives for its object exactly if it is the entry. -/
theorem cachedProxy?_iff_find? (ht : w.proxyTarget? u = some (.object o))
    (halive : w.alive u.handle = true) :
    w.cachedProxy? via o = some u ↔ (w.binding via).cache.find? (w.layout o.ref) = some u := by
  rw [cachedProxy?_eq_some]
  exact and_iff_left ⟨halive, _, ht, Target.same_self _⟩

/-- **What a proxy reaches it still reaches** in a world that only grew. -/
theorem Grows.proxyTarget? (hg : w.Grows w') (hw : w.Faithful) {t : Target}
    (ht : w.proxyTarget? u = some t) : w'.proxyTarget? u = some t := by
  obtain ⟨p, hp, htarget, halive⟩ := proxyTarget?_eq_some.mp ht
  refine proxyTarget?_eq_some.mpr ⟨p, hg.proxy? hp, htarget, fun o ho => ?_⟩
  exact hg.extends.alive (hw.has_of_proxy hp (ho ▸ htarget)).made (halive o ho)

/-- An undisposed proxy of an object meets whoever reaches the object. -/
theorem Targets.meet {a : UserdataRef} (ha : w.Targets a o)
    (ht : w.proxyTarget? u = some (.object o)) : w.Meet a u := by
  obtain ⟨p, o', hp, htarget, hsame⟩ := ha
  obtain ⟨-, -, -, halive⟩ := proxyTarget?_eq_some.mp ht
  refine ⟨.object o', .object o, proxyTarget?_eq_some.mpr ⟨p, hp, htarget, ?_⟩, ht, hsame⟩
  rintro _ ⟨⟩
  exact (same_iff.mp hsame) ▸ halive o rfl

/-- Proxies that meet are equal. -/
theorem Meet.equals {a b : UserdataRef} (h : w.Meet a b) :
    w.equals (.userdata a) (.userdata b) = true := by
  have hplain : (w.userdatum a).Plain := by
    obtain ⟨s, -, hs, -, -⟩ := h
    obtain ⟨p, hp, -, -⟩ := proxyTarget?_eq_some.mp hs
    exact plain_of_proxy hp
  exact (equals_userdata_iff hplain).mpr (.inr h)

end World

/-! ### Through the host and back -/

namespace Act

variable {ε : Type} {w w' : World} {via : BindingRef} {u : UserdataRef} {v : ScriptValue}

/-- A script value goes to the host where any value is accepted, and comes back. -/
def throughAny (via : BindingRef) (v : ScriptValue) : Act ConversionError ScriptValue := do
  let x ← toHost via .any v
  toScript via x

/-- Anything becomes its natural value. -/
theorem outcome_toHost_any (via : BindingRef) (v : ScriptValue) (w : World) :
    (toHost via .any v).outcome w = (.ok (w.naturalValue v), w) := by
  rw [outcome_toHost]
  cases v <;> rfl

/-- So the way back is all that happens. -/
theorem outcome_throughAny (via : BindingRef) (v : ScriptValue) (w : World) :
    (throughAny via v).outcome w = (toScript via (w.naturalValue v)).outcome w :=
  outcome_bind_ok (outcome_toHost_any via v w)

/-- What reaches nothing passes through unconverted. -/
theorem toScript_of_reachesNothing (hv : w.ReachesNothing v) :
    (toScript via (w.naturalValue v) : Act ε ScriptValue).outcome w = (.ok v, w) := by
  cases v with
  | userdata u =>
    have hnatural : w.naturalValue (.userdata u) = .script (.userdata u) := by
      simp only [World.naturalValue, World.reachesNothing_iff.mp hv u rfl]
    rw [hnatural]
    unfold toScript
    rfl
  | _ =>
    simp only [World.naturalValue]
    unfold toScript
    rfl

/-- **What comes back for a value**, and the world after it. -/
structure Returns (via : BindingRef) (w : World) (v : ScriptValue) (v' : ScriptValue) (w' : World) :
    Prop where
  outcome : (throughAny via v).outcome w = (.ok v', w')
  equal : w'.equals v' v = true
  /-- It is what went in unless that had to be wrapped again. -/
  same : v'.rawEquals v = true ↔ ¬ w.Rewraps via v
  /-- Without anything to unwrap nothing happens at all. -/
  untouched : w.ReachesNothing v → v' = v ∧ w' = w

/-- A proxy that reaches something was made, and the next one was not. -/
theorem next_ne {t : Target} (ht : w.proxyTarget? u = some t) : w.userdata.next ≠ u := by
  rintro rfl
  obtain ⟨p, hp, -, -⟩ := World.proxyTarget?_eq_some.mp ht
  cases (w.userdata.get?_next).symm.trans (World.proxy?_eq_some.mp hp)

/-- So it comes back as it is. Of what is left only a float that is no number differs from itself. -/
theorem returns_of_reachesNothing (hv : w.ReachesNothing v)
    (hnan : ∀ x, v = .number x → x.isNaN = false) : Returns via w v v w where
  outcome := (outcome_throughAny via v w).trans (toScript_of_reachesNothing hv)
  equal := by
    unfold World.equals
    rw [ScriptValue.rawEquals_self hnan, Bool.true_or]
  same := iff_of_true (ScriptValue.rawEquals_self hnan) hv.not_rewraps
  untouched _ := ⟨rfl, rfl⟩

/-- A proxy of a class comes back as a fresh one. -/
theorem returns_type (hw : w.Faithful) {c : ClassRef} (ht : w.proxyTarget? u = some (.type c)) :
    ∃ v' w', Returns via w (.userdata u) v' w' := by
  -- A class gets a proxy of its own each time.
  have hout : (throughAny via (.userdata u)).outcome w = (.ok (.userdata w.userdata.next),
      { w with userdata := w.userdata.push (.proxy ⟨some (.type c), via, c.name⟩) }) := by
    rw [outcome_throughAny]
    simp only [World.naturalValue, ht]
    unfold toScript
    rfl
  -- The new proxy and the old one reach the same class, so they are equal, but they are not the same
  -- userdata.
  have hfresh : World.proxyTarget? { w with
      userdata := w.userdata.push (.proxy ⟨some (.type c), via, c.name⟩) } w.userdata.next =
      some (.type c) :=
    World.proxyTarget?_eq_some.mpr
      ⟨_, World.proxy?_eq_some.mpr (Store.get?_push_self _ _), rfl, by rintro o ⟨⟩⟩
  have hkept := (w.grows_userdata (.proxy ⟨some (.type c), via, c.name⟩)).proxyTarget? hw ht
  refine ⟨_, _, hout, World.Meet.equals ⟨_, _, hfresh, hkept, Target.same_self _⟩, ?_, ?_⟩
  · exact iff_of_false (fun h => next_ne ht (beq_iff_eq.mp h)) (not_not_intro (.ofClass ht))
  · exact fun hnothing => absurd hnothing (World.not_reachesNothing ht)

/-- A proxy of an object comes back as the one that the binding has for the object. -/
theorem returns_instance (hw : w.Faithful) {o : ObjectRef}
    (ht : w.proxyTarget? u = some (.object o)) (halive : w.alive u.handle = true) :
    ∃ v' w', Returns via w (.userdata u) v' w' := by
  have hnatural : w.naturalValue (.userdata u) = .object o := World.naturalValue_eq_object.mpr ht
  obtain ⟨a, w', ha, hg⟩ := proxyFor_ok (ε := ConversionError) via o w
  have hout : (throughAny via (.userdata u)).outcome w = (.ok (.userdata a), w') := by
    rw [outcome_throughAny, hnatural]
    unfold toScript
    rw [outcome_bind_ok ha]
    rfl
  -- The entry of the cache is used if it can be, and a fresh proxy is none that went in.
  have hsame : w'.Targets a o ∧ (a = u ↔ w.cachedProxy? via o = some u) := by
    rw [outcome_proxyFor] at ha
    cases hcached : w.cachedProxy? via o with
    | some b =>
      rw [hcached] at ha
      cases ha
      exact ⟨World.targets_of_cached hcached, Option.some_inj.symm⟩
    | none =>
      rw [hcached] at ha
      cases ha
      exact ⟨w.targets_withProxy via o, iff_of_false (next_ne ht) nofun⟩
  obtain ⟨htargets, hcached⟩ := hsame
  refine ⟨.userdata a, w', hout, (htargets.meet (hg.proxyTarget? hw ht)).equals, ?_, ?_⟩
  · calc (ScriptValue.userdata a).rawEquals (.userdata u) = true
      _ ↔ a = u := beq_iff_eq
      _ ↔ w.cachedProxy? via o = some u := hcached
      _ ↔ (w.binding via).cache.find? (w.layout o.ref) = some u :=
        World.cachedProxy?_iff_find? ht halive
      _ ↔ ¬ w.Rewraps via (.userdata u) := (World.not_rewraps_iff_find? ht).symm
  · exact fun hnothing => absurd hnothing (World.not_reachesNothing ht)

end Act

open Act

/-- **Any is transparent.** All worlds of a run are faithful, whatever is about to be done in them. In a
faithful world, and under every binding, a value that lives and can be compared with itself goes to the
host where any value is accepted and comes back as an equal one (`Returns`): as the same, unless it is a
proxy of a class, or a proxy of a living object other than the entry of the binding's cache. Whatever
reaches nothing comes back as the same in an unchanged world: tables, functions, foreign values, and
proxies that were disposed or whose object has died. -/
theorem any_transparent :
    (∀ (c : Config) layout (ops : Program), ∀ i ∈ (World.start c layout).instants ops,
      i.world.Faithful) ∧
    ∀ (w : World) via v, w.Faithful → (∀ k ∈ handles v, w.alive k = true) →
      (∀ x, v = .number x → x.isNaN = false) → ∃ v' w', Returns via w v v' w' := by
  refine ⟨fun c layout ops i hi => (World.faithful_instants c layout ops i hi).world, ?_⟩
  intro w via v hw halive hnan
  by_cases hv : w.ReachesNothing v
  · exact ⟨v, w, returns_of_reachesNothing hv hnan⟩
  -- Otherwise the value is a userdata that reaches something.
  · obtain ⟨u, rfl, hne⟩ : ∃ u, v = .userdata u ∧ w.proxyTarget? u ≠ none := by
      simpa only [World.reachesNothing_iff, not_forall, exists_prop] using hv
    obtain ⟨t, ht⟩ := Option.ne_none_iff_exists'.mp hne
    cases t with
    | type c => exact returns_type hw ht
    | object o => exact returns_instance hw ht (halive _ (List.mem_singleton_self _))

namespace AnyTransparent

/-- The result is stored under a name and is not told. -/
def into (name : String) : Disposition := ⟨some name, none, false, true⟩

/-- A lamp has the proxy of the cache and one more. -/
def spareProxy : Program :=
  [.cls (into "Lamp") ⟨"Lamp", [], none, none⟩,
    .act (into "lamp") (.cls (.instantiate "Lamp" [])),
    .act (into "cached") (.proxy (.wrap (some "lamp"))),
    .act (into "spare") (.proxy (.create (.object (some "lamp")) none))]

end AnyTransparent

open AnyTransparent in
/-- The spare proxy goes in and the cached one comes back: another handle, and an equal value. -/
theorem any_transparent_spareProxy :
    let w := (World.start .default fun r => r.index).after spareProxy
    let spare : ScriptValue := .userdata ⟨1⟩
    (∀ k ∈ handles spare, w.alive k = true) ∧ (∀ x, spare = .number x → x.isNaN = false) ∧
      ((throughAny ⟨0⟩ spare).outcome w).1.toOption = some (.userdata ⟨0⟩) ∧
      ∃ v' w', Returns ⟨0⟩ w spare v' w' := by
  intro w spare
  have hw : w.Faithful := World.faithful_session .default _ spareProxy
  have halive : ∀ k ∈ handles spare, w.alive k = true := by
    intro k hk
    obtain rfl := List.mem_singleton.mp hk
    decide +kernel
  have hnan : ∀ x, spare = .number x → x.isNaN = false := nofun
  exact ⟨halive, hnan, by decide +kernel, any_transparent.2 w ⟨0⟩ spare hw halive hnan⟩

end ScriptHost
