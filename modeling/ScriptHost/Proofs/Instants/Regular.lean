import ScriptHost.Proofs.Instants.Basic
import ScriptHost.Proofs.Resolution

/-!
# Regular worlds

What a world stores fits together: classes were built from members that were declared, objects hold what
their classes hold, bindings show what a configuration says, functions that run methods do so on targets
on which these were found, and proxies know the names of their classes. All of this is settled when
a thing is made, and no act changes it afterwards (`Effects.regular`), so worlds that come from a regular
one are regular.

What a lookup gives in a regular world follows: the class declares it, and it is static exactly where the
lookup is not for an object (`Regular.declares_of_resolve`).
-/

set_option autoImplicit false

namespace ScriptHost

/-- The class is there and declares the member. -/
def World.Declares (w : World) (c : ClassRef) (m : Member) : Prop :=
  ∃ info, w.classes.get? c.ref = some info ∧ m ∈ info.members

/-- A binding as a configuration describes it, under any policy and whatever it has cached since. -/
def Binding.Configured (b : Binding) : Prop :=
  ∃ cfg policy cache, b = { ofConfig cfg with policy := policy, cache := cache }

/-- A method runs on a target whose class declares it, on an object unless it is static. -/
def Code.Placed (w : World) : Code → Prop
  | .method _ t m => w.Declares t.cls (.method m) ∧ m.isStatic = !t.isInstance
  | _ => True

/-- **A regular world**: what is stored fits together. -/
structure World.Regular (w : World) : Prop where
  classes : ∀ c info, w.classes.get? c = some info → info.Declared
  objects : ∀ o x, w.objects.get? o = some x → x.payload.type = .slots
  bindings : ∀ b x, w.bindings.get? b = some x → x.Configured
  functions : ∀ f x, w.functions.get? f = some x → x.code.Placed w
  proxies : ∀ u p, w.userdata.get? u = some (.proxy p) → ∀ t, p.target = some t →
    p.typeName = t.cls.name

/-! ### Lookups -/

/-- What is resolved is admitted. -/
theorem Visibility.admits_of_mem_resolve {v : Visibility} {c : HostClass} {k : MemberKey} {m : Member}
    (h : m ∈ v.resolve c k) : v.admits m.isStatic m.isPublic = true :=
  (List.mem_filter.mp h).2

/-- What a configured binding finds is static exactly where the lookup is not for an object. -/
theorem Binding.Configured.isStatic_of_mem {b : Binding} (h : b.Configured) {c : HostClass}
    {k : MemberKey} {onInstance : Bool} {m : Member} (hm : m ∈ b.resolve c k onInstance) :
    m.isStatic = !onInstance := by
  obtain ⟨cfg, policy, cache, rfl⟩ := h
  unfold Binding.resolve at hm
  split at hm
  · cases hm
  · next v hv =>
    have hadmits := Visibility.admits_of_mem_resolve (List.mem_filter.mp hm).1
    rw [admits_eq_shows hv] at hadmits
    simp only [Config.shows, Bool.and_eq_true, beq_iff_eq] at hadmits
    exact hadmits.1.2

namespace World

variable {w w' : World}

/-- What is declared stays declared while classes are kept. -/
theorem Declares.kept {c : ClassRef} {m : Member} (h : w.Declares c m)
    (hc : ∀ c info, w.classes.get? c = some info → w'.classes.get? c = some info) :
    w'.Declares c m :=
  h.imp fun info hinfo => ⟨hc c.ref info hinfo.1, hinfo.2⟩

/-- The members of a class that is looked up are declared: where none is stored, there are none. -/
theorem declares_of_mem {c : ClassRef} {m : Member} (h : m ∈ (w.cls c).members) :
    w.Declares c m := by
  unfold cls at h
  cases hc : w.classes.get? c.ref with
  | some info =>
    rw [hc] at h
    exact ⟨info, hc, h⟩
  | none =>
    rw [hc] at h
    cases h

namespace Regular

/-- Every binding is configured, also the one that a lookup falls back to. -/
theorem binding (h : w.Regular) (b : BindingRef) : (w.binding b).Configured := by
  have hfallback : ((w.bindings.get? w.bridge).getD (.ofConfig .default)).Configured := by
    cases hb : w.bindings.get? w.bridge with
    | some x => exact h.bindings w.bridge x hb
    | none => exact ⟨.default, _, [], rfl⟩
  unfold World.binding
  cases hb : w.bindings.get? b with
  | some x => exact h.bindings b x hb
  | none => exact hfallback

/-- Classes of sessions hold slots. -/
theorem holds (h : w.Regular) (c : ClassRef) : (w.cls c).holds = .slots := by
  unfold cls
  cases hc : w.classes.get? c.ref with
  | some info => exact (h.classes _ info hc).holds
  | none => rfl

/-- So do objects. -/
theorem payload (h : w.Regular) (o : ObjectRef) : (w.object o).payload.type = .slots := by
  unfold object
  cases ho : w.objects.get? o.ref with
  | some x => exact h.objects _ x ho
  | none => rfl

/-- Declared members are regular. -/
theorem member (h : w.Regular) {c : ClassRef} {m : Member} (hm : w.Declares c m) : m.Regular := by
  obtain ⟨info, hinfo, hmem⟩ := hm
  exact (h.classes _ info hinfo).regular m hmem

/-- **What a lookup finds** is declared, and static exactly where the lookup is not for an object. -/
theorem declares_of_resolve (h : w.Regular) {via : BindingRef} {c : ClassRef} {k : MemberKey}
    {onInstance : Bool} {m : Member}
    (hm : m ∈ (w.binding via).resolve (w.cls c) k onInstance) :
    w.Declares c m ∧ m.isStatic = !onInstance :=
  ⟨declares_of_mem (Binding.mem_members_of_resolve hm), (h.binding via).isStatic_of_mem hm⟩

/-! ### What is made stays regular -/

/-- A payload of slots may replace another one. -/
theorem setObject (h : w.Regular) (o : Ref .object) {x : Object} (hx : x.payload.type = .slots) :
    ({ w with objects := w.objects.set o x } : World).Regular where
  classes := h.classes
  objects q y hy := by
    rcases Store.get?_set_cases hy with rfl | hy
    · exact hx
    · exact h.objects q y hy
  bindings := h.bindings
  functions := h.functions
  proxies := h.proxies

/-- An object may be lent. -/
theorem changeBorrow (h : w.Regular) (o : ObjectRef) (s : Borrow) :
    ({ w with objects := w.objects.set o.ref { w.object o with borrow := s } } : World).Regular :=
  h.setObject o.ref (h.payload o)

/-- Userdata may be added if it is no proxy, or one that knows the name of its class. -/
theorem pushUserdata (h : w.Regular) {x : Userdata}
    (hx : ∀ p, x = .proxy p → ∀ t, p.target = some t → p.typeName = t.cls.name) :
    ({ w with userdata := w.userdata.push x } : World).Regular where
  classes := h.classes
  objects := h.objects
  bindings := h.bindings
  functions := h.functions
  proxies u p hp := by
    rcases Store.get?_push_cases hp with ⟨-, heq⟩ | hp
    · exact hx p heq.symm
    · exact h.proxies u p hp

end Regular

end World

/-- A method that was found is placed. -/
theorem Code.FoundIn.placed {w : World} {c : Code} (h : c.FoundIn w) (hw : w.Regular) :
    c.Placed w := by
  cases c with
  | method via t m =>
    obtain ⟨k, hk⟩ := h
    exact hw.declares_of_resolve (hk ▸ List.mem_singleton_self _)
  | _ => trivial

/-- A method stays where it was placed while classes are kept. -/
theorem Code.Placed.kept {w w' : World} {c : Code} (h : c.Placed w)
    (hc : ∀ c info, w.classes.get? c = some info → w'.classes.get? c = some info) : c.Placed w' := by
  cases c with
  | method via t m => exact ⟨h.1.kept hc, h.2⟩
  | _ => trivial

/-- **Acts keep the world regular.** -/
theorem Effects.regular {l : License} {b : Bool} {w w' : World} (h : Effects l b w w')
    (hw : w.Regular) : w'.Regular := by
  -- Only acts that make or replace a thing matter here; the others leave what is stored as it is.
  induction h with
  | trans _ _ ih ih' => exact ih' (ih hw)
  | function w f _ hf =>
    refine ⟨hw.classes, hw.objects, hw.bindings, fun g x hx => ?_, hw.proxies⟩
    rcases Store.get?_push_cases hx with ⟨-, rfl⟩ | hx
    · exact hf.placed hw
    · exact hw.functions g x hx
  | object w c p hp =>
    refine ⟨hw.classes, fun o x hx => ?_, hw.bindings, hw.functions, hw.proxies⟩
    rcases Store.get?_push_cases hx with ⟨-, rfl⟩ | hx
    · exact hp.elim id fun heq => heq.trans (hw.holds c)
    · exact hw.objects o x hx
  | cls w c _ hc =>
    refine ⟨fun d x hx => ?_, hw.objects, hw.bindings, fun f x hx => ?_, hw.proxies⟩
    · rcases Store.get?_push_cases hx with ⟨-, rfl⟩ | hx
      · exact hc
      · exact hw.classes d x hx
    · exact (hw.functions f x hx).kept fun _ _ => Store.get?_push_of_some _
  | binding w c _ =>
    refine ⟨hw.classes, hw.objects, fun b x hx => ?_, hw.functions, hw.proxies⟩
    rcases Store.get?_push_cases hx with ⟨-, rfl⟩ | hx
    · exact ⟨c, _, [], rfl⟩
    · exact hw.bindings b x hx
  | carrier | foreign => exact hw.pushUserdata nofun
  | proxy w via t =>
    refine hw.pushUserdata fun p hp t' ht => ?_
    obtain rfl := Userdata.proxy.inj hp
    rw [Option.some.inj ht]
  | wrapped w via o _ =>
    have hpushed : World.Regular
        { w with userdata := w.userdata.push (.proxy ⟨some (.object o), via, o.cls.name⟩) } := by
      refine hw.pushUserdata fun p hp t ht => ?_
      obtain rfl := Userdata.proxy.inj hp
      rw [← Option.some.inj ht]
      rfl
    refine ⟨hpushed.classes, hpushed.objects, fun b x hx => ?_, hpushed.functions,
      hpushed.proxies⟩
    -- The binding differs in its cache only.
    rcases Store.get?_set_cases hx with rfl | hx
    · obtain ⟨cfg, policy, cache, heq⟩ := hpushed.binding via
      rw [heq]
      exact ⟨cfg, policy, _, rfl⟩
    · exact hpushed.bindings b x hx
  | disposed w u p hp =>
    refine ⟨hw.classes, hw.objects, hw.bindings, hw.functions, fun v q hq => ?_⟩
    rcases Store.get?_set_cases hq with heq | hq
    · obtain rfl := Userdata.proxy.inj heq
      nofun
    · exact hw.proxies v q hq
  | written w o slot v _ _ => exact hw.setObject o.ref rfl
  | lent o mutably _ _ ih => exact (ih (hw.changeBorrow o _)).changeBorrow o _
  | hold _ _ ih | called _ _ _ ih | resumed _ _ _ ih =>
    have hw' := ih ⟨hw.classes, hw.objects, hw.bindings, hw.functions, hw.proxies⟩
    exact ⟨hw'.classes, hw'.objects, hw'.bindings, hw'.functions, hw'.proxies⟩
  | _ => exact ⟨hw.classes, hw.objects, hw.bindings, hw.functions, hw.proxies⟩

namespace World

/-- A world before any operation, whose own binding is under any policy. -/
def startUnder (policy : Policy) (c : Config) (layout : Ref .object → Nat) : World :=
  { start c layout with bindings := Store.empty.push { Binding.ofConfig c with policy := policy } }

/-- Before any operation nothing is stored but the binding of the bridge. -/
theorem regular_start (policy : Policy) (c : Config) (layout : Ref .object → Nat) :
    (startUnder policy c layout).Regular where
  classes _ _ h := by simp [startUnder, start, Store.empty, Store.get?] at h
  objects _ _ h := by simp [startUnder, start, Store.empty, Store.get?] at h
  bindings b x hx := by
    rcases Store.get?_push_cases hx with ⟨-, rfl⟩ | hx
    · exact ⟨c, policy, [], rfl⟩
    · simp [Store.empty, Store.get?] at hx
  functions _ _ h := by simp [startUnder, start, Store.empty, Store.get?] at h
  proxies _ _ h := by simp [startUnder, start, Store.empty, Store.get?] at h

end World

end ScriptHost
