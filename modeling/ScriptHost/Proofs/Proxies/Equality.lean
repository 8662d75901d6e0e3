import Mathlib.Data.List.Destutter
import ScriptHost.Proofs.Afterlife.Disposal
import ScriptHost.Proofs.Afterlife.Onward
import ScriptHost.Proofs.Instants.Faithful

/-!
# When proxies are equal

Script compares userdata by handle first, and then asks the two values. Proxies answer by what they
reach, so the answer changes while the run goes on: a proxy that was disposed, or whose object has died,
reaches nothing and equals nothing but itself.

`equals_userdata_iff` puts both steps together for all userdata that do not bring an equality of their
own. It makes equality an equivalence in every world (`equals_equivalence`), because each proxy reaches
at most one thing. That distinct proxies do not become equal later is `Since.proxyTarget?`: what a proxy
reaches it reached before, since nothing is given to a proxy and nothing is revived.
-/

set_option autoImplicit false

namespace ScriptHost

/-! ### The same target -/

namespace Target

variable {r s t : Target}

/-- Two targets are the same if both are one class or both are one object. -/
theorem same_eq_true_iff : s.same t = true ↔
    (∃ c d, s = .type c ∧ t = .type d ∧ c.ref = d.ref) ∨
      ∃ a b, s = .object a ∧ t = .object b ∧ a.ref = b.ref := by
  cases s <;> cases t <;> simp [same, ClassRef.same, ObjectRef.same]

/-- A target is the same as itself. -/
theorem same_self (t : Target) : t.same t = true := by
  cases t <;> simp [same, ClassRef.same, ObjectRef.same]

/-- Targets are the same in either order. -/
theorem same_symm (h : s.same t = true) : t.same s = true := by
  rcases same_eq_true_iff.mp h with ⟨c, d, hs, ht, href⟩ | ⟨a, b, hs, ht, href⟩
  · exact same_eq_true_iff.mpr (.inl ⟨d, c, ht, hs, href.symm⟩)
  · exact same_eq_true_iff.mpr (.inr ⟨b, a, ht, hs, href.symm⟩)

/-- What is the same as one target is the same as each that is the same as that one. -/
theorem same_trans (h : r.same s = true) (h' : s.same t = true) : r.same t = true := by
  cases r <;> cases s <;> cases t <;>
    simp_all [same, ClassRef.same, ObjectRef.same]

end Target

/-- A proxy, a host failure, or a foreign value that brings no equality. -/
def Userdata.Plain : Userdata → Prop
  | .foreign _ tagged => tagged = none
  | .proxy _ | .carrier _ => True

namespace World

variable {w w₀ : World} {a b c : UserdataRef} {p q : Proxy}

/-- Both userdata are proxies that reach the same thing now. -/
def Meet (w : World) (a b : UserdataRef) : Prop :=
  ∃ s t, w.proxyTarget? a = some s ∧ w.proxyTarget? b = some t ∧ s.same t = true

/-- Whoever meets another is met by it. -/
theorem Meet.symm (h : w.Meet a b) : w.Meet b a := by
  obtain ⟨s, t, hs, ht, hsame⟩ := h
  exact ⟨t, s, ht, hs, Target.same_symm hsame⟩

/-- Whoever meets somebody meets whomever that one meets. -/
theorem Meet.trans (h : w.Meet a b) (h' : w.Meet b c) : w.Meet a c := by
  obtain ⟨r, s, hr, hs, hrs⟩ := h
  obtain ⟨s', t, hs', ht, hst⟩ := h'
  -- The one in the middle reaches one thing only.
  obtain rfl := Option.some.inj (hs.symm.trans hs')
  exact ⟨r, t, hr, ht, Target.same_trans hrs hst⟩

/-! ### Equality in one world -/

/-- Where userdata bring no equality of their own, it is to meet. -/
theorem userdataEquals?_eq_some_true (ha : (w.userdatum a).Plain) :
    w.userdataEquals? a b = some true ↔ w.Meet a b := by
  unfold userdataEquals? Meet proxyTarget? World.proxy?
  rcases hd : w.userdatum a with ⟨n, _ | tag⟩ | p | e
  case foreign.some => cases hd ▸ ha
  case proxy =>
    cases w.userdatum b with
    | proxy q =>
      -- Only what both reach is compared.
      simp only [Option.bind_some]
      generalize w.targetOf? p = s, w.targetOf? q = t
      cases s <;> cases t <;> simp
    | _ => simp
  all_goals simp

/-- **Equality of userdata**, unless the values bring one: they are one value, or proxies that reach the
same thing. -/
theorem equals_userdata_iff (ha : (w.userdatum a).Plain) :
    w.equals (.userdata a) (.userdata b) = true ↔ a = b ∨ w.Meet a b := by
  rw [← userdataEquals?_eq_some_true ha, equals, Bool.or_eq_true]
  have hraw : (ScriptValue.userdata a).rawEquals (.userdata b) = true ↔ a = b := beq_iff_eq
  rw [hraw]
  cases w.userdataEquals? a b <;> simp

/-- Equality of userdata is an equivalence. -/
theorem equals_equivalence (w : World) :
    Equivalence fun a b : { u : UserdataRef // (w.userdatum u).Plain } =>
      w.equals (.userdata a) (.userdata b) = true where
  refl a := (equals_userdata_iff a.2).mpr (.inl rfl)
  symm {a b} h := by
    rw [equals_userdata_iff a.2] at h
    rw [equals_userdata_iff b.2]
    exact h.imp Eq.symm Meet.symm
  trans {a b c} h h' := by
    rw [equals_userdata_iff a.2] at h ⊢
    rw [equals_userdata_iff b.2] at h'
    rcases h with heq | hmeet
    · rwa [heq]
    · rcases h' with heq | hmeet'
      · exact .inr (heq ▸ hmeet)
      · exact .inr (hmeet.trans hmeet')

/-- Proxies bring no equality of their own. -/
theorem plain_of_proxy (hp : w.proxy? a = some p) : (w.userdatum a).Plain := by
  rw [userdatum_of_proxy hp]
  trivial

/-- What two proxies have to stand for to be equal: one class, or one object that lives. -/
def Shared (w : World) (p q : Proxy) : Prop :=
  (∃ c d, p.target = some (.type c) ∧ q.target = some (.type d) ∧ c.ref = d.ref) ∨
    ∃ o o', p.target = some (.object o) ∧ q.target = some (.object o') ∧ o.ref = o'.ref ∧
      w.alive o.ref.handle = true

/-- Two proxies meet where they share a target. -/
theorem meet_iff (hp : w.proxy? a = some p) (hq : w.proxy? b = some q) :
    w.Meet a b ↔ w.Shared p q := by
  -- What each of them reaches is its target, which lives if it is an object.
  have hreached {u : UserdataRef} {r : Proxy} (hr : w.proxy? u = some r) (t : Target) :
      w.proxyTarget? u = some t ↔ r.target = some t ∧
        ∀ o, t = .object o → w.alive o.ref.handle = true := by
    rw [proxyTarget?_eq_some, hr]
    simp
  unfold Meet Shared
  simp only [hreached hp, hreached hq, Target.same_eq_true_iff]
  constructor
  · rintro ⟨s, t, ⟨hs, hlive⟩, ⟨ht, -⟩, ⟨c, d, rfl, rfl, href⟩ | ⟨o, o', rfl, rfl, href⟩⟩
    · exact .inl ⟨c, d, hs, ht, href⟩
    · exact .inr ⟨o, o', hs, ht, href, hlive o rfl⟩
  · rintro (⟨c, d, hs, ht, href⟩ | ⟨o, o', hs, ht, href, hlive⟩)
    · exact ⟨_, _, ⟨hs, nofun⟩, ⟨ht, nofun⟩, .inl ⟨c, d, rfl, rfl, href⟩⟩
    · refine ⟨_, _, ⟨hs, ?_⟩, ⟨ht, ?_⟩, .inr ⟨o, o', rfl, rfl, href⟩⟩
      · rintro _ ⟨⟩
        exact hlive
      · rintro _ ⟨⟩
        exact href ▸ hlive

/-! ### Equality in later worlds -/

/-- **What a proxy reaches it reached before.** -/
theorem Since.proxyTarget? (h : w₀.Since w) (hw₀ : w₀.Faithful) (hp : w₀.proxy? a = some p)
    {t : Target} (ht : w.proxyTarget? a = some t) : w₀.proxyTarget? a = some t := by
  obtain ⟨p', hp', htarget, halive⟩ := proxyTarget?_eq_some.mp ht
  obtain ⟨t', ht', hcases⟩ := h.proxies a p (proxy?_eq_some.mp hp)
  obtain rfl : p' = { p with target := t' } :=
    Option.some.inj (hp'.symm.trans (proxy?_eq_some.mpr ht'))
  -- It reaches something, so nobody disposed of it.
  obtain rfl : t' = p.target := hcases.resolve_right fun hnone => by cases hnone.symm.trans htarget
  refine proxyTarget?_eq_some.mpr ⟨p, hp, htarget, fun o ho => ?_⟩
  by_contra hdead
  have hmade := (hw₀.has_of_proxy hp (ho ▸ htarget)).made
  have hgone := h.spares.alive_eq_false hmade (Bool.eq_false_iff.mpr hdead)
  exact absurd (halive o ho) (Bool.eq_false_iff.mp hgone)

/-- Proxies that meet met before. -/
theorem Since.meet (h : w₀.Since w) (hw₀ : w₀.Faithful) (hp : w₀.proxy? a = some p)
    (hq : w₀.proxy? b = some q) (hmeet : w.Meet a b) : w₀.Meet a b := by
  obtain ⟨s, t, hs, ht, hsame⟩ := hmeet
  exact ⟨s, t, h.proxyTarget? hw₀ hp hs, h.proxyTarget? hw₀ hq ht, hsame⟩

end World

namespace Instant

/-- **Whoever is told apart stays apart**: proxies that were unequal at the earlier instant are unequal at
the later one. -/
def KeepsApart (i j : Instant) : Prop :=
  ∀ a b p q, i.world.proxy? a = some p → i.world.proxy? b = some q →
    i.world.equals (.userdata a) (.userdata b) = false →
    j.world.equals (.userdata a) (.userdata b) = false

/-- Equality at a later instant is equality at an earlier one, for proxies that were there. -/
theorem keepsApart {i j : Instant} (hi : i.world.Faithful) (h : i.world.Since j.world) :
    i.KeepsApart j := by
  intro a b p q hp hq hapart
  obtain ⟨t, hp', -⟩ := h.proxies a p (World.proxy?_eq_some.mp hp)
  have hplain := World.plain_of_proxy (World.proxy?_eq_some.mpr hp')
  rw [Bool.eq_false_iff] at hapart ⊢
  intro hequal
  refine hapart ((World.equals_userdata_iff (World.plain_of_proxy hp)).mpr ?_)
  exact ((World.equals_userdata_iff hplain).mp hequal).imp_right (h.meet hi hp hq)

end Instant

/-- **Equality of proxies.** In every world equality is an equivalence on the userdata that bring none of
their own, and two distinct proxies, of whatever bindings, are equal exactly if they stand for one class
or for one object that lives. In a run of any program whose types name their classes by variables, as
programs are written, two proxies that are unequal at one instant are unequal at all later ones. -/
theorem proxy_equality (c : Config) (layout : Ref .object → Nat) (ops : Program)
    (hops : Op.allClosed ops = true) :
    (∀ w : World, Equivalence fun a b : { u : UserdataRef // (w.userdatum u).Plain } =>
      w.equals (.userdata a) (.userdata b) = true) ∧
    (∀ (w : World) a b p q, w.proxy? a = some p → w.proxy? b = some q → a ≠ b →
      (w.equals (.userdata a) (.userdata b) = true ↔ w.Shared p q)) ∧
    ((World.start c layout).instants ops).Pairwise Instant.KeepsApart := by
  refine ⟨World.equals_equivalence, ?_, ?_⟩
  -- Distinct proxies are different values, so they have to meet.
  · intro w a b p q hp hq hne
    calc w.equals (.userdata a) (.userdata b) = true
      _ ↔ a = b ∨ w.Meet a b := World.equals_userdata_iff (World.plain_of_proxy hp)
      _ ↔ w.Meet a b := or_iff_right hne
      _ ↔ w.Shared p q := World.meet_iff hp hq
  -- Of two instants of a session the later one comes about from the earlier one.
  · have hfaithful := World.faithful_instants c layout ops
    obtain ⟨-, -, hordered⟩ := World.instants_ordered ops hops (.start c layout)
    exact hordered.imp_of_mem fun hi _ h => Instant.keepsApart (hfaithful _ hi).world h

namespace ProxyEquality

/-- The result is stored under a name. -/
def into (name : String) : Disposition := ⟨some name, none, false, true⟩

/-- The result is neither stored nor told. -/
def quietly : Disposition := ⟨none, none, false, true⟩

/-- A lamp gets a proxy of each of two bindings, and its class gets two proxies. Then the lamp dies, and
one of the proxies of the class is disposed of. -/
def twoBindings : Program :=
  [.cls (into "Lamp") ⟨"Lamp", [], none, none⟩,
    .act (into "lamp") (.cls (.instantiate "Lamp" [])),
    .act (into "other") (.proxy (.binding .default)),
    .act (into "p") (.proxy (.wrap (some "lamp"))),
    .act (into "q") (.proxy (.create (.object (some "lamp")) (some "other"))),
    .act (into "c") (.proxy (.wrapClass "Lamp")),
    .act (into "d") (.proxy (.create (.cls "Lamp") (some "other"))),
    .act quietly (.value (.drop "lamp")),
    .act quietly (.proxy (.dispose (.var "c" 0))),
    .act quietly (.value .state)]

/-- Whether the proxies of the lamp are equal, and those of its class. -/
def verdicts (i : Instant) : Bool × Bool :=
  let equal (a b : Nat) := i.world.equals (.userdata ⟨a⟩) (.userdata ⟨b⟩)
  (equal 0 1, equal 2 3)

end ProxyEquality

open ProxyEquality in
/-- Both pairs become equal once they are made, and each pair becomes unequal for good. -/
theorem proxy_equality_twoBindings :
    let session := (World.start .default fun r => r.index).instants twoBindings
    Op.allClosed twoBindings = true ∧
    (session.map verdicts).destutter (· ≠ ·) =
      [(false, false), (true, false), (true, true), (false, true), (false, false)] ∧
    session.Pairwise Instant.KeepsApart := by
  have hclosed : Op.allClosed twoBindings = true := by decide
  obtain ⟨-, -, hapart⟩ := proxy_equality .default (fun r => r.index) twoBindings hclosed
  exact ⟨hclosed, by decide +kernel, hapart⟩

end ScriptHost
