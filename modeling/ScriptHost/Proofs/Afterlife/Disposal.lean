import ScriptHost.Proofs.Afterlife.Refusal
import ScriptHost.Proofs.Instants.Faithful
import ScriptHost.Proofs.Ownership

/-!
# Disposing of a proxy

A proxy that is disposed of stands for nothing, and nothing else is changed: no object, no function
and no other proxy. It does let go of the class of its object, and with the class all could go that
nobody else holds. The object is not among it: whoever holds an object holds its class as well
(`Faithful.keeps_cls`), so an object that is held through its class is held in a circle.

Main statements: `World.Faithful.disposedOf`, for any world, and `Scope.disposes`, for the operation.
-/

set_option autoImplicit false

namespace ScriptHost

open Act

/-! ### Whoever holds an object holds its class -/

mutual

/-- An object in a value is there under some class, which is there as well. -/
theorem HostValue.mention_of_mem_objects {o : Ref .object} : ∀ {v : HostValue}, o ∈ v.objects →
    ∃ a : ObjectRef, a.ref = o ∧ .object a ∈ named v ∧ a.cls.ref.handle ∈ v.held
  | .array items, ho => by
    obtain ⟨a, ha, hnamed, hcls⟩ := HostValue.mention_of_mem_objectsOfAll ho
    exact ⟨a, ha, hnamed, hcls⟩
  | .object a, ho => by
    obtain rfl := List.mem_singleton.mp ho
    exact ⟨a, rfl, List.mem_cons_self, List.mem_cons_of_mem _ List.mem_cons_self⟩

/-- The same for the items of an array. -/
theorem HostValue.mention_of_mem_objectsOfAll {o : Ref .object} :
    ∀ {vs : List HostValue}, o ∈ HostValue.objectsOfAll vs →
      ∃ a : ObjectRef, a.ref = o ∧ .object a ∈ HostValue.namedAll vs ∧
        a.cls.ref.handle ∈ HostValue.heldAll vs
  | v :: vs, ho => by
    rcases List.mem_append.mp ho with ho | ho
    · obtain ⟨a, ha, hnamed, hcls⟩ := HostValue.mention_of_mem_objects ho
      exact ⟨a, ha, List.mem_append_left _ hnamed, List.mem_append_left _ hcls⟩
    · obtain ⟨a, ha, hnamed, hcls⟩ := HostValue.mention_of_mem_objectsOfAll ho
      exact ⟨a, ha, List.mem_append_right _ hnamed, List.mem_append_right _ hcls⟩

end

/-- What a value names and holds is named and held where the value is. -/
structure HostValue.Within (v : HostValue) (names : List Mention) (holds : List Handle) : Prop where
  named : ∀ n ∈ named v, n ∈ names
  held : ∀ h ∈ v.held, h ∈ holds

/-- A value in a slot. -/
theorem Slots.within {s : Slots} {v : HostValue} (hv : v ∈ s.map Prod.snd) :
    v.Within (named s) (handles s) := by
  obtain ⟨p, hp, rfl⟩ := List.mem_map.mp hv
  exact ⟨fun n hn => List.mem_flatMap.mpr ⟨p, hp, hn⟩,
    fun h hh => List.mem_flatMap.mpr ⟨p, hp, hh⟩⟩

/-- The constant of a member. -/
theorem Member.within {m : Member} {v : HostValue} (hv : m.constant? = some v) :
    v.Within (named m) (handles m) := by
  cases m with
  | property p =>
    obtain ⟨name, type, isStatic, isPublic, arity, getter, setter⟩ := p
    cases getter with
    | none => cases hv
    | some g =>
      cases g with
      | slot _ => cases hv
      | constant c =>
        obtain rfl := Option.some.inj hv
        -- The property holds the classes of its type besides, and names the constant only.
        refine ⟨fun n hn => ?_, fun h hh => List.mem_append_right _ hh⟩
        exact List.mem_flatMap.mpr ⟨.constant c, List.mem_cons_self, hn⟩
  | _ => cases hv

/-- The values that a class keeps: the constants of its members, and what its constructor starts from.
-/
theorem HostClass.within {c : HostClass} {v : HostValue} (hv : v ∈ c.constants) :
    v.Within (named c) (handles c) := by
  rcases List.mem_append.mp hv with hv | hv
  · obtain ⟨m, hm, hconstant⟩ := List.mem_filterMap.mp hv
    have hmember := Member.within hconstant
    exact ⟨fun n hn => List.mem_append_left _ (List.mem_flatMap.mpr ⟨m, hm, hmember.named n hn⟩),
      fun h hh => List.mem_append_left _ (List.mem_flatMap.mpr ⟨m, hm, hmember.held h hh⟩)⟩
  -- The others are in the slots that the constructor starts from.
  · cases hc : c.constructor with
    | none =>
      rw [hc] at hv
      cases hv
    | some slots =>
      rw [hc] at hv
      have hslots := Slots.within hv
      refine ⟨fun n hn => List.mem_append_right _ ?_, fun h hh => List.mem_append_right _ ?_⟩
      · rw [hc]
        exact List.mem_flatMap.mpr ⟨slots, List.mem_cons_self, hslots.named n hn⟩
      · rw [hc]
        exact hslots.held h hh

namespace World

variable {w : World} {o : ObjectRef}

/-- An object is an instance of one class. -/
theorem Has.cls_eq {a : ObjectRef} (ho : w.Has (.object o)) (ha : w.Has (.object a))
    (href : a.ref = o.ref) : a.cls = o.cls := by
  obtain ⟨x, hx, hcls⟩ := ho
  obtain ⟨y, hy, hcls'⟩ := ha
  rw [href, hx] at hy
  obtain rfl := Option.some.inj hy
  exact hcls'.symm.trans hcls

/-- An object that is there was made. -/
theorem Has.made (ho : w.Has (.object o)) : o.ref.handle ∈ w.things := by
  obtain ⟨x, hx, -⟩ := ho
  exact mem_things.mpr ⟨x, hx⟩

/-- What a proxy stands for is there. -/
theorem Faithful.has_of_proxy (hw : w.Faithful) {u : UserdataRef} {p : Proxy}
    (hp : w.proxy? u = some p) (ht : p.target = some (.object o)) : w.Has (.object o) := by
  have hnamed : Mention.object o ∈ named (Userdata.proxy p) := by
    show Mention.object o ∈ named p.target
    rw [ht]
    exact List.mem_cons_self
  exact hw.known.userdata u _ (proxy?_eq_some.mp hp) _ hnamed rfl

/-- Of what a known value holds, the objects are held together with their class. -/
theorem Has.cls_held {v : HostValue} {names : List Mention} {holds : List Handle}
    (ho : w.Has (.object o)) (hv : v.Within names holds)
    (hknown : ∀ n ∈ names, n ∈ w.known true) (hmem : o.ref ∈ v.objects) :
    o.cls.ref.handle ∈ holds := by
  obtain ⟨a, href, hnamed, hcls⟩ := HostValue.mention_of_mem_objects hmem
  have ha : w.Has (.object a) := hknown _ (hv.named _ hnamed) rfl
  exact ho.cls_eq ha href ▸ hv.held _ hcls

/-- **Whoever holds an object holds its class.** -/
theorem Faithful.keeps_cls (hw : w.Faithful) (ho : w.Has (.object o)) {a : Handle}
    (ha : Keeps w.holdings a o.ref.handle) : Keeps w.holdings a o.cls.ref.handle := by
  rw [keeps_iff]
  -- Only slots of objects and constants of classes hold objects, and both are host values, in which
  -- an object never comes without its class.
  rcases keeps_object_iff.mp ha with ⟨x, rfl, v, hv, hmem⟩ | ⟨c, rfl, v, hv, hmem⟩
  · show o.cls.ref.handle ∈ handles (w.objects.get? x)
    unfold slotValues at hv
    cases hx : w.objects.get? x with
    | none =>
      rw [hx] at hv
      cases hv
    | some ob =>
      rw [hx] at hv
      have hcls := ho.cls_held (Slots.within hv) (hw.known.objects x ob hx) hmem
      exact mem_handles_some.mpr hcls
  · show o.cls.ref.handle ∈ handles (w.classes.get? c)
    unfold constants at hv
    cases hc : w.classes.get? c with
    | none =>
      rw [hc] at hv
      cases hv
    | some info =>
      rw [hc] at hv
      have hcls := ho.cls_held (HostClass.within hv) (hw.known.classes c info hc) hmem
      exact mem_handles_some.mpr hcls

/-! ### What is let go of -/

/-- The world in which a proxy stands for nothing. -/
def disposing (w : World) (u : UserdataRef) (p : Proxy) : World :=
  { w with userdata := w.userdata.set u (.proxy { p with target := none }) }

variable {u : UserdataRef} {p : Proxy}

/-- Other userdata are as they were. -/
theorem userdata_disposing_of_ne {v : UserdataRef} (hv : v ≠ u) :
    (w.disposing u p).userdata.get? v = w.userdata.get? v :=
  Store.get?_set_ne w.userdata _ hv

/-- The proxy itself stands for nothing. -/
theorem proxy?_disposing (hp : w.proxy? u = some p) :
    (w.disposing u p).proxy? u = some { p with target := none } := by
  refine proxy?_eq_some.mpr ?_
  show (w.userdata.set u (.proxy { p with target := none })).get? u = _
  rw [Store.get?_set, if_pos rfl, proxy?_eq_some.mp hp]
  rfl

/-- A disposed proxy keeps nothing alive, and all else keeps alive what it did. -/
theorem keeps_disposing (hp : w.proxy? u = some p) {a h : Handle} :
    Keeps (w.disposing u p).holdings a h ↔ a ≠ u.handle ∧ Keeps w.holdings a h := by
  rw [keeps_iff, keeps_iff]
  -- The proxy itself holds nothing any more, and everything else holds what it held.
  by_cases ha : a = u.handle
  · subst ha
    have hcontents : (w.disposing u p).contents u.handle = [] := by
      show handles ((w.disposing u p).userdata.get? u) = []
      rw [proxy?_eq_some.mp (proxy?_disposing hp)]
      rfl
    simp [hcontents]
  · have hcontents : (w.disposing u p).contents a = w.contents a := by
      obtain ⟨kind, index⟩ := a
      cases kind with
      | userdata =>
        have hne : (⟨index⟩ : UserdataRef) ≠ u := fun heq => ha (congrArg Ref.handle heq)
        exact congrArg handles (userdata_disposing_of_ne hne)
      | _ => rfl
    rw [hcontents]
    exact (and_iff_right ha).symm

/-- A proxy of an object keeps the class alive, and nothing else. -/
theorem eq_cls_of_keeps_proxy (hp : w.proxy? u = some p) (ht : p.target = some (.object o))
    {x : Handle} (hx : Keeps w.holdings u.handle x) : x = o.cls.ref.handle := by
  have hcontents : x ∈ handles (w.userdata.get? u) := keeps_iff.mp hx
  rw [proxy?_eq_some.mp hp, mem_handles_some] at hcontents
  have hweak : x ∈ (p.target.map Target.weakHandles).getD [] := hcontents
  rw [ht] at hweak
  exact List.mem_singleton.mp hweak

/-- **Disposing of a proxy lets nothing die that the object hangs on.** What was let go of is the
class. If the object hangs on it, whoever holds the object holds the class in turn, and things in a
circle are not dead. -/
theorem Faithful.dead_of_dead_disposing (hw : w.Faithful) (hp : w.proxy? u = some p)
    (ht : p.target = some (.object o)) {x : Handle}
    (hdead : Dead (w.disposing u p).roots (w.disposing u p).holdings x)
    (habove : Relation.ReflTransGen (Keeps (w.disposing u p).holdings) x o.ref.handle) :
    Dead w.roots w.holdings x := by
  -- Going up from `x`, everything is above the object as well.
  induction hdead with
  | intro x hroot hkeeps ih =>
    refine .intro x hroot fun a ha => ?_
    by_cases hau : a = u.handle
    · subst hau
      obtain rfl := eq_cls_of_keeps_proxy hp ht ha
      -- The class is not the object, so something between them holds the object, and the class.
      obtain ⟨b, hb, hlast⟩ : ∃ b, Relation.ReflTransGen (Keeps (w.disposing u p).holdings)
          o.cls.ref.handle b ∧ Keeps (w.disposing u p).holdings b o.ref.handle := by
        rcases habove.cases_tail with heq | hlast
        · cases heq
        · exact hlast
      obtain ⟨hbu, hlast⟩ := (keeps_disposing hp).mp hlast
      have hcls := (keeps_disposing hp).mpr ⟨hbu, hw.keeps_cls (hw.has_of_proxy hp ht) hlast⟩
      have hcircle := Relation.TransGen.tail' hb hcls
      exact absurd hcircle (Dead.intro _ hroot hkeeps).irrefl
    · have ha' := (keeps_disposing hp).mpr ⟨hau, ha⟩
      exact ih a ha' (.head ha' habove)

/-- **The object of a disposed proxy is as alive as it was.** -/
theorem Faithful.alive_disposing (hw : w.Faithful) (hp : w.proxy? u = some p)
    (ht : p.target = some (.object o)) :
    (w.disposing u p).alive o.ref.handle = w.alive o.ref.handle := by
  have ho := hw.has_of_proxy hp ht
  have ho' : (w.disposing u p).Has (.object o) := ho
  cases halive : w.alive o.ref.handle with
  | false =>
    -- Less is kept alive than before, so what was dead is.
    have hdead := (alive_eq_false_iff ho.made).mp halive
    rw [alive_eq_false_iff ho'.made]
    refine hdead.of_keeps (fun _ hx => hx) fun a x ha => ?_
    exact ((keeps_disposing hp).mp ha).2
  | true =>
    refine alive_of_not_dead fun hdead => ?_
    exact not_dead_of_alive ho.made halive (hw.dead_of_dead_disposing hp ht hdead .refl)

/-- Who names the same target reaches it as before. -/
theorem Faithful.reach?_disposing (hw : w.Faithful) (hp : w.proxy? u = some p) {t : Target}
    (ht : p.target = some t) : (w.disposing u p).reach? t = w.reach? t := by
  cases t with
  | type c => rw [reach?, reach?]
  | object o => rw [reach?, reach?, hw.alive_disposing hp ht]

/-! ### What is left alone -/

/-- **Disposing of a proxy**, and what it leaves alone. The other proxies are what they were, and those
of the same class or object reach it as before. It makes no difference to do it again. -/
structure DisposedOf (w : World) (u : UserdataRef) (p : Proxy) (w' : World) : Prop where
  proxy : w'.proxy? u = some { p with target := none }
  objects : w'.objects = w.objects
  functions : w'.functions = w.functions
  others : ∀ v, v ≠ u → w'.userdata.get? v = w.userdata.get? v
  reach : ∀ v q, v ≠ u → w.proxy? v = some q → q.target = p.target →
    w'.proxyTarget? v = w.proxyTarget? v
  again : (dispose u : Act Failure Unit).outcome w' = (.ok (), w')

/-- Disposing of a proxy takes its target from it and leaves everything else as it is, so that other
proxies of the same target still reach it. -/
theorem Faithful.disposedOf (hw : w.Faithful) (hp : w.proxy? u = some p) :
    w.DisposedOf u p (w.disposing u p) where
  proxy := proxy?_disposing hp
  objects := rfl
  functions := rfl
  others _ hv := userdata_disposing_of_ne hv
  reach v q hv hq ht := by
    have hq' : (w.disposing u p).proxy? v = some q :=
      proxy?_eq_some.mpr ((userdata_disposing_of_ne hv).trans (proxy?_eq_some.mp hq))
    rw [proxyTarget?, proxyTarget?, hq, hq', Option.bind_some, Option.bind_some, targetOf?,
      targetOf?, ht]
    cases hpt : p.target with
    | none => rw [Option.bind_none, Option.bind_none]
    | some t => rw [Option.bind_some, Option.bind_some, hw.reach?_disposing hp hpt]
  again := by
    -- The second time the same is written as the first time.
    have hp' := proxy?_disposing hp
    have hsame : (w.disposing u p).userdata.set u (.proxy { p with target := none }) =
        (w.disposing u p).userdata :=
      Store.set_set w.userdata u _ _
    rw [outcome_dispose, hp']
    exact congrArg (fun s => (Except.ok (), { w.disposing u p with userdata := s })) hsame

end World

/-! ### The operation -/

section Operation

variable {s : Scope} {e : ScriptExpr} {u : UserdataRef} {w w₁ : World}

/-- What is taken for a proxy is one. -/
theorem proxy_of_proxyOperand (hout : (proxyOperand s e).outcome w = (.ok u, w₁)) :
    ∃ p, w₁.proxy? u = some p := by
  obtain ⟨v, w₂, -, hfound⟩ := outcome_bind_eq_ok hout
  cases v with
  | userdata x =>
    obtain ⟨isProxy, w₃, hlook, hfound⟩ := outcome_bind_eq_ok hfound
    cases hlook
    dsimp only at hfound
    cases hx : w₂.proxy? x <;> rw [hx] at hfound <;> cases hfound
    exact ⟨_, hx⟩
  | _ => cases hfound

/-- Whenever the scope disposes of a proxy it succeeds, and leaves all else alone. -/
def Scope.Disposes (s : Scope) (w : World) : Prop :=
  ∀ e u w₁, (proxyOperand s e).outcome w = (.ok u, w₁) → ∃ p w₂, w₁.proxy? u = some p ∧
    ((ProxyAction.dispose e).run s).outcome w = (.ok .nothing, w₂) ∧ w₁.DisposedOf u p w₂

/-- **Proxies may be disposed of at any time**, where the scope works on what is there. -/
theorem Scope.disposes (hw : w.Faithful) (hs : Known (w.known true) s) : s.Disposes w := by
  intro e u w₁ hout
  obtain ⟨p, hp⟩ := proxy_of_proxyOperand hout
  -- Operands are evaluated in a faithful world and leave one behind, in which the proxy is disposed.
  have hoperand := proxyOperand_composed (l := .all) (b := true) hs e
  obtain ⟨hw₁, -, -⟩ := hoperand.faithful_ok hw hout
  refine ⟨p, w₁.disposing u p, hp, ?_, hw₁.disposedOf hp⟩
  have hdispose : (dispose u : Act Failure Unit).outcome w₁ = (.ok (), w₁.disposing u p) := by
    rw [outcome_dispose, hp]
    rfl
  simp only [ProxyAction.run]
  rw [outcome_bind_ok hout, outcome_bind_ok hdispose]
  rfl

end Operation

end ScriptHost
