import ScriptHost.Proofs.Proxies.Growth

/-!
# Entries of the proxy cache

`World.Entry` says that the cache of a binding has a userdata value for an object, and that this is
a proxy of the object or was one until it was disposed. As long as the proxy is in use the entry is
what the cache gives, and it survives every conversion: cleaning keeps what is alive, and an entry
is overwritten only for an object with the same address.
-/

set_option autoImplicit false

namespace ScriptHost

/-! ### The cache -/

namespace ProxyCache

variable {c : ProxyCache} {a a' : Nat} {u u' : UserdataRef}

/-- What was put under an address is found under it. -/
theorem find?_put_self : (c.put a u).find? a = some u := by
  simp [find?, put]

/-- What is under another address is found as before. -/
theorem find?_put_ne (h : a' ≠ a) : (c.put a' u').find? a = c.find? a := by
  have hne : (a' == a) = false := beq_false_of_ne h
  simp only [find?, put, List.find?_cons, hne, List.find?_filter]
  congr 2
  funext e
  by_cases he : e.1 = a
  · simp [he, Ne.symm h]
  · simp [he]

/-- Cleaning keeps the entries whose proxies live. -/
theorem find?_clean {live : UserdataRef → Bool} (h : c.find? a = some u) (hlive : live u = true) :
    (c.clean live).find? a = some u := by
  unfold clean
  split
  · unfold find? at h ⊢
    obtain ⟨⟨a', u'⟩, he, rfl⟩ := Option.map_eq_some_iff.mp h
    -- Before the first entry of the address there was none, so there is none after cleaning.
    obtain ⟨hkey, before, after, rfl, hbefore⟩ := List.find?_eq_some_iff_append.mp he
    refine Option.map_eq_some_iff.mpr ⟨(a', u'), ?_, rfl⟩
    refine List.find?_eq_some_iff_append.mpr
      ⟨hkey, before.filter fun e => live e.2, after.filter fun e => live e.2, ?_, fun e he => ?_⟩
    · simp only [List.filter_append, List.filter_cons, hlive, if_true]
    · exact hbefore e (List.mem_filter.mp he).1
  · exact h

end ProxyCache

/-! ### Proxies and entries -/

namespace World

/-- The userdata value is a proxy of this object, or of nothing since it was disposed. -/
def Only (w : World) (u : UserdataRef) (o : ObjectRef) : Prop :=
  ∃ p, w.proxy? u = some p ∧ ∀ t, p.target = some t → t.same (.object o) = true

/-- The userdata value is an undisposed proxy of this object. -/
def Targets (w : World) (u : UserdataRef) (o : ObjectRef) : Prop :=
  ∃ p t, w.proxy? u = some p ∧ p.target = some (.object t) ∧ t.same o = true

/-- The cache of a binding has this userdata value for an object. -/
structure Entry (w : World) (via : BindingRef) (o : ObjectRef) (u : UserdataRef) : Prop where
  found : ∃ b, w.bindings.get? via = some b ∧ b.cache.find? (w.layout o.ref) = some u
  only : w.Only u o

/-- A proxy that is held and was not disposed, and its object lives. -/
structure InUse (w : World) (o : ObjectRef) (u : UserdataRef) : Prop where
  object : w.Lives o.ref.handle
  held : w.Lives u.handle
  undisposed : ∀ p, w.proxy? u = some p → p.target ≠ none

section Proxies

variable {w w' : World} {via : BindingRef} {o : ObjectRef} {u : UserdataRef}

/-- Proxies are looked up among userdata. -/
theorem proxy?_eq_some {p : Proxy} : w.proxy? u = some p ↔ w.userdata.get? u = some (.proxy p) := by
  unfold proxy? userdatum
  cases w.userdata.get? u with
  | none => simp
  | some d => cases d <;> simp

/-- Proxies stay what they were while the world grows. -/
theorem Grows.proxy? (h : w.Grows w') {p : Proxy} (hp : w.proxy? u = some p) :
    w'.proxy? u = some p :=
  proxy?_eq_some.mpr (h.userdata u _ (proxy?_eq_some.mp hp))

/-- So do their targets. -/
theorem Targets.grows (h : w.Targets u o) (hg : w.Grows w') : w'.Targets u o := by
  obtain ⟨p, t, hp, ht, hsame⟩ := h
  exact ⟨p, t, hg.proxy? hp, ht, hsame⟩

/-- A proxy that targets an object is of that object and of no other. -/
theorem Targets.only (h : w.Targets u o) : w.Only u o := by
  obtain ⟨p, t, hp, ht, hsame⟩ := h
  refine ⟨p, hp, fun t' ht' => ?_⟩
  rw [ht] at ht'
  obtain rfl := Option.some.inj ht'
  exact hsame

/-- A proxy of one thing, undisposed, is a proxy of this object. -/
theorem Only.targets (h : w.Only u o) (hne : ∀ p, w.proxy? u = some p → p.target ≠ none) :
    w.Targets u o := by
  obtain ⟨p, hp, honly⟩ := h
  cases ht : p.target with
  | none => exact absurd ht (hne p hp)
  | some t =>
    have hsame := honly t ht
    cases t with
    | type c => cases hsame
    | object t => exact ⟨p, t, hp, ht, hsame⟩

/-- A proxy was made. -/
theorem Targets.made (h : w.Targets u o) : u.handle ∈ w.things := by
  obtain ⟨p, t, hp, -, -⟩ := h
  exact mem_things.mpr ⟨_, proxy?_eq_some.mp hp⟩

/-- What is in use stays in use when more is held and more is made. -/
theorem InUse.extends (h : w.InUse o u) (hl : w.Only u o) (he : w.Extends w')
    (hp : ∀ p, w.proxy? u = some p → w'.proxy? u = some p) : w'.InUse o u where
  object := h.object.extends he
  held := h.held.extends he
  undisposed p hp' := by
    obtain ⟨q, hq, -⟩ := hl
    have heq : p = q := by
      rw [hp q hq] at hp'
      exact (Option.some.inj hp').symm
    exact heq ▸ h.undisposed q hq

/-- Objects are the same if their references are. -/
theorem same_iff {a b : ObjectRef} : a.same b = true ↔ a.ref = b.ref := by
  simp [ObjectRef.same]

/-- When the cache gives a proxy for an object: the entry of its address is alive and reaches it. -/
theorem cachedProxy?_eq_some : w.cachedProxy? via o = some u ↔
    (w.binding via).cache.find? (w.layout o.ref) = some u ∧ w.alive u.handle = true ∧
      ∃ t, w.proxyTarget? u = some t ∧ t.same (.object o) = true := by
  unfold World.cachedProxy?
  -- Without an entry nothing is given.
  cases hfind : (w.binding via).cache.find? (w.layout o.ref) with
  | none => simp
  | some v =>
    cases ht : w.proxyTarget? v with
    | none =>
      -- The entry reaches nothing: the cache gives nothing, and no target can be named.
      simp only [ht, Bool.and_false, Bool.false_eq_true, if_false, reduceCtorEq, Option.some.injEq,
        false_iff, not_and]
      rintro rfl -
      simp [ht]
    | some t =>
      simp only [ht, Option.some.injEq]
      refine ⟨?_, ?_⟩
      -- An entry is given if it is alive and what it reaches is the object.
      · intro h
        cases hreach : w.alive v.handle && t.same (.object o) with
        | true =>
          rw [hreach, if_pos rfl] at h
          obtain rfl := Option.some.inj h
          obtain ⟨halive, hsame⟩ := Bool.and_eq_true_iff.mp hreach
          exact ⟨rfl, halive, t, ht, hsame⟩
        | false => simp [hreach] at h
      · rintro ⟨rfl, halive, t', ht', hsame⟩
        obtain rfl := Option.some.inj (ht.symm.trans ht')
        simp only [halive, hsame, Bool.and_self, if_true]

/-- What a proxy reaches is its target, and an object that is reached lives. -/
theorem proxyTarget?_eq_some {t : Target} : w.proxyTarget? u = some t ↔
    ∃ p, w.proxy? u = some p ∧ p.target = some t ∧
      ∀ o, t = .object o → w.alive o.ref.handle = true := by
  unfold proxyTarget? targetOf?
  simp only [Option.bind_eq_some_iff]
  refine ⟨?_, ?_⟩
  · rintro ⟨p, hp, t', ht', hreach⟩
    cases t' with
    | type c =>
      obtain rfl := Option.some.inj hreach
      exact ⟨p, hp, ht', nofun⟩
    | object o =>
      simp only [reach?] at hreach
      split at hreach
      · next halive =>
        obtain rfl := Option.some.inj hreach
        exact ⟨p, hp, ht', fun _ h => Target.object.inj h ▸ halive⟩
      · cases hreach
  · rintro ⟨p, hp, ht, halive⟩
    refine ⟨p, hp, t, ht, ?_⟩
    cases t with
    | type c => rfl
    | object o => simp only [reach?, halive o rfl, if_true]

/-- An entry whose proxy is in use is what the cache gives for the object. -/
theorem Entry.cachedProxy? (h : w.Entry via o u) (hu : w.InUse o u) {a : ObjectRef}
    (ha : a.ref = o.ref) : w.cachedProxy? via a = some u := by
  obtain ⟨b, hb, hfind⟩ := h.found
  obtain ⟨p, t, hp, ht, hsame⟩ := h.only.targets hu.undisposed
  have href : t.ref = o.ref := same_iff.mp hsame
  have hbinding : w.binding via = b := by simp [binding, hb]
  refine cachedProxy?_eq_some.mpr ⟨?_, hu.held.alive, .object t, ?_, same_iff.mpr ?_⟩
  · rw [hbinding, ha]
    exact hfind
  · refine proxyTarget?_eq_some.mpr ⟨p, hp, ht, fun t' ht' => ?_⟩
    rw [← Target.object.inj ht', href]
    exact hu.object.alive
  · exact href.trans ha.symm

/-- What the cache gives for an object is an undisposed proxy of it. -/
theorem targets_of_cached (h : w.cachedProxy? via o = some u) : w.Targets u o := by
  obtain ⟨-, -, t, ht, hsame⟩ := cachedProxy?_eq_some.mp h
  obtain ⟨p, hp, htarget, -⟩ := proxyTarget?_eq_some.mp ht
  cases t with
  | type c => cases hsame
  | object t => exact ⟨p, t, hp, htarget, hsame⟩

/-- What the cache gives for an object is its entry. -/
theorem entry_of_cached (hb : ∃ b, w.bindings.get? via = some b)
    (h : w.cachedProxy? via o = some u) : w.Entry via o u := by
  obtain ⟨b, hb⟩ := hb
  obtain ⟨hfind, -, -⟩ := cachedProxy?_eq_some.mp h
  refine ⟨⟨b, hb, ?_⟩, (targets_of_cached h).only⟩
  rwa [show w.binding via = b by simp [binding, hb]] at hfind

end Proxies

end World

/-! ### Entries survive -/

namespace World

variable {w w' : World} {via : BindingRef} {o : ObjectRef} {u : UserdataRef}

/-- No other object among these has the address of this one. -/
def ApartFrom (w : World) (o : ObjectRef) (hs : List Handle) : Prop :=
  ∀ a : Ref .object, a.handle ∈ hs → w.layout a = w.layout o.ref → a = o.ref

/-- Among fewer objects there are fewer with the address. -/
theorem ApartFrom.mono {hs ks : List Handle} (h : w.ApartFrom o hs) (hsub : ∀ k ∈ ks, k ∈ hs)
    (hlayout : w'.layout = w.layout) : w'.ApartFrom o ks := by
  intro a ha heq
  rw [hlayout] at heq
  exact h a (hsub _ ha) heq

/-- Where neither bindings nor userdata changed the entry is as it was. -/
theorem Entry.of_eq (h : w.Entry via o u) (hb : w'.bindings = w.bindings)
    (hu : w'.userdata = w.userdata) (hl : w'.layout = w.layout) : w'.Entry via o u := by
  obtain ⟨⟨b, hb', hfind⟩, p, hp, honly⟩ := h
  refine ⟨⟨b, by rw [hb]; exact hb', by rw [hl]; exact hfind⟩, p, ?_, honly⟩
  exact proxy?_eq_some.mpr (by rw [hu]; exact proxy?_eq_some.mp hp)

/-- What is in use stays in use while the world grows. -/
theorem InUse.grows (h : w.InUse o u) (he : w.Entry via o u) (hg : w.Grows w') : w'.InUse o u :=
  h.extends he.only hg.extends fun _ hp => hg.proxy? hp

/-- Whoever holds something more uses what was in use. -/
theorem InUse.holding (h : w.InUse o u) (he : w.Entry via o u) (hs : List Handle) :
    ({ w with held := hs ++ w.held } : World).InUse o u :=
  h.extends he.only (w.extends_holding hs) fun _ hp => hp

/-- The new proxy targets its object. -/
theorem targets_withProxy (w : World) (via : BindingRef) (o : ObjectRef) :
    (w.withProxy via o).Targets w.userdata.next o :=
  ⟨_, o, proxy?_eq_some.mpr (Store.get?_push_self _ _), rfl, same_iff.mpr rfl⟩

/-- The binding once it has the new proxy. -/
theorem binding_withProxy {b : Binding} (hb : w.bindings.get? via = some b) (a : ObjectRef) :
    ∃ pushed : World, w.Grows pushed ∧ (w.withProxy via a).bindings.get? via = some { b with
      cache := (b.cache.clean fun u => pushed.alive u.handle).put (w.layout a.ref)
        w.userdata.next } := by
  refine ⟨{ w with userdata := w.userdata.push (.proxy ⟨some (.object a), via, a.cls.name⟩) },
    w.grows_userdata _, ?_⟩
  have hbinding : ({ w with
      userdata := w.userdata.push (.proxy ⟨some (.object a), via, a.cls.name⟩) } : World).binding
      via = b := by
    simp [binding, hb]
  unfold World.withProxy
  simp only [Store.get?_set, if_true, hb, Option.map_some, hbinding]

/-- A new proxy of another object, with another address, leaves an entry in use alone, also when the
cache is cleaned for it. -/
theorem Entry.withProxy (h : w.Entry via o u) (hu : w.InUse o u) {a : ObjectRef}
    (hne : w.layout a.ref ≠ w.layout o.ref) : (w.withProxy via a).Entry via o u := by
  obtain ⟨⟨b, hb, hfind⟩, p, hp, honly⟩ := h
  obtain ⟨pushed, hg, hb'⟩ := binding_withProxy hb a
  refine ⟨⟨_, hb', ?_⟩, p, (w.grows_withProxy via a).proxy? hp, honly⟩
  refine (ProxyCache.find?_put_ne hne).trans (ProxyCache.find?_clean hfind ?_)
  exact (hu.held.extends hg.extends).alive

/-- A new proxy has its entry. -/
theorem entry_withProxy (hb : ∃ b, w.bindings.get? via = some b) :
    (w.withProxy via o).Entry via o w.userdata.next := by
  obtain ⟨b, hb⟩ := hb
  obtain ⟨pushed, -, hb'⟩ := binding_withProxy hb o
  exact ⟨⟨_, hb', ProxyCache.find?_put_self⟩, (targets_withProxy w via o).only⟩

end World

namespace Act

open World

variable {ε : Type} {via : BindingRef} {w w' : World} {o : ObjectRef} {u : UserdataRef}

/-- Wrapping an object leaves the entries of others that are in use. -/
theorem proxyFor_entry {a : ObjectRef} {v : UserdataRef}
    (h : (proxyFor via a : Act ε UserdataRef).outcome w = (.ok v, w')) (he : w.Entry via o u)
    (hu : w.InUse o u) (hapart : w.ApartFrom o [a.ref.handle]) : w'.Entry via o u := by
  rw [outcome_proxyFor] at h
  cases hc : w.cachedProxy? via a with
  | some v' =>
    rw [hc] at h
    cases h
    exact he.of_eq rfl rfl rfl
  | none =>
    rw [hc] at h
    cases h
    -- An object with the same address would be the same object, and the cache would have given it.
    refine he.withProxy hu fun heq => ?_
    have hsame : a.ref = o.ref := hapart a.ref List.mem_cons_self heq
    rw [he.cachedProxy? hu hsame] at hc
    cases hc

mutual

/-- **Entries survive conversions**: a proxy that is in use when a conversion begins keeps its
entry, whatever is converted. -/
theorem toScript_entry : ∀ {x : HostValue} {w w' : World} {s : ScriptValue},
    (toScript via x : Act ε ScriptValue).outcome w = (.ok s, w') → w.Entry via o u → w.InUse o u →
    w.ApartFrom o x.held → w'.Entry via o u
  | .null, _, _, _, h, he, _, _ | .bool _, _, _, _, h, he, _, _ | .int _, _, _, _, h, he, _, _
  | .uint _, _, _, _, h, he, _, _ | .float _, _, _, _, h, he, _, _
  | .string _, _, _, _, h, he, _, _ | .script _, _, _, _, h, he, _, _ => by
    unfold toScript at h
    cases h
    exact he
  | .array items, w, w', s, h, he, hu, hapart => by
    obtain ⟨vs, w₁, hvs, -, rfl⟩ := toScript_array h
    exact (toScriptEach_entry hvs he hu hapart).of_eq rfl rfl rfl
  | .object a, w, w', s, h, he, hu, hapart => by
    obtain ⟨v, hv, -⟩ := toScript_object h
    refine proxyFor_entry hv he hu (hapart.mono (fun k hk => ?_) rfl)
    rw [List.mem_singleton.mp hk]
    exact List.mem_cons_self
  | .cls c, w, w', s, h, he, hu, hapart => by
    unfold toScript at h
    cases h
    exact ⟨he.found, (he.only.imp fun p hp => ⟨(w.grows_userdata _).proxy? hp.1, hp.2⟩)⟩

theorem toScriptEach_entry : ∀ {xs : List HostValue} {pending : List Handle} {w w' : World}
    {vs : List ScriptValue}, (toScriptEach via xs pending : Act ε _).outcome w = (.ok vs, w') →
    w.Entry via o u → w.InUse o u → w.ApartFrom o (HostValue.heldAll xs) → w'.Entry via o u
  | [], _, _, _, _, h, he, _, _ => by
    unfold toScriptEach at h
    cases h
    exact he
  | x :: xs, pending, w, w', vs, h, he, hu, hapart => by
    obtain ⟨v, w₁, rest, w₂, hv, hrest, -, rfl⟩ := toScriptEach_cons h
    -- The item keeps the entry, the proxy is in use after it as before, and so the rest keeps it.
    have hheld : ({ w with held := pending ++ w.held } : World).Entry via o u :=
      he.of_eq rfl rfl rfl
    have he₁ : w₁.Entry via o u := toScript_entry hv hheld (hu.holding he pending)
      (hapart.mono (fun k hk => List.mem_append_left _ hk) rfl)
    have hg : w.Grows { w₁ with held := w.held } := (toScript_grows hv).of_holding
    have hu₁ := (hu.grows he hg).holding (he₁.of_eq rfl rfl rfl) (handles v)
    have he₂ : w₂.Entry via o u := toScriptEach_entry hrest (he₁.of_eq rfl rfl rfl) hu₁
      (hapart.mono (fun k hk => List.mem_append_right _ hk) hg.layout)
    exact he₂.of_eq rfl rfl rfl

end

end Act

end ScriptHost
