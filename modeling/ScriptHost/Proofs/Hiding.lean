import ScriptHost.Proofs.Act.Effects
import ScriptHost.Proofs.BuiltClass
import ScriptHost.Proofs.Liveness

/-!
# Leaving out what is denied

A class with its denied members and the same class without them, in two worlds that are equal
otherwise. `Hides` is the invariant: the class is stored, every binding has the policy, and what the
denied members refer to is held, or leads to nothing but classes, which nobody can see die.

The two worlds are alike (`Hides.alike`), and they stay so: an act that looks at no declarations
gives the same in both, and what it does to the one it does to the other (`Composed.withClass`). The
induction is on how the act is put together, and carries `Hides` along by `Hides.effects`.
-/

set_option autoImplicit false

namespace ScriptHost

open Act

/-- A policy that decides by the name of the class and by the member. -/
def Policy.ByName (p : Policy) : Prop :=
  ∀ (c c' : HostClass) (m : Member), c.name = c'.name → p.permits c m = p.permits c' m

/-- Every policy that can be configured is of this kind. -/
theorem Policy.byName_ofSpec (spec : PolicySpec) : (Policy.ofSpec spec).ByName := by
  intro c c' m h
  cases spec with
  | rules r =>
    change (r.decide c.name m.name).isPermit = (r.decide c'.name m.name).isPermit
    rw [h]
  | shared | permitAll | denyKinds => rfl

/-- One class is the other one without the members that a policy denies. -/
structure HostClass.Pruned (p : Policy) (c c' : HostClass) : Prop where
  name : c'.name = c.name
  payload : c'.holds = c.holds
  constructor : c'.constructor = c.constructor
  display : c'.display = c.display
  members : c'.members = c.members.filter (p.permits c)
  resolve : ∀ (v : Visibility) k, v.resolve c' k = (v.resolve c k).filter (p.permits c)

namespace HostClass

variable {p : Policy} {c c' : HostClass} {name : String} {ms : List Member} {ctor : Option Slots}
  {display : Option (List DisplayPart)}

/-- What is built from the permitted members. -/
theorem pruned_of_build (h : build name ms ctor display = .ok c)
    (h' : build name (ms.filter (p.permits c)) ctor display = .ok c') : c.Pruned p c' := by
  obtain ⟨hname, hholds, hms, hctor, hdisplay, -⟩ := build_ok h
  obtain ⟨hname', hholds', hms', hctor', hdisplay', -⟩ := build_ok h'
  exact ⟨hname'.trans hname.symm, hholds'.trans hholds.symm, hctor'.trans hctor.symm,
    hdisplay'.trans hdisplay.symm, hms'.trans (by rw [hms]), resolve_of_build h h'⟩

/-- What a class holds beyond the pruned one is in its denied members. -/
theorem Pruned.handles (h : c.Pruned p c') {x : Handle} : x ∈ handles c ↔
    x ∈ handles c' ∨ ∃ m ∈ c.members, p.permits c m = false ∧ x ∈ Holds.handles m := by
  change x ∈ Holds.handles c.members ++ Holds.handles (c.constructor.getD []) ↔
    x ∈ Holds.handles c'.members ++ Holds.handles (c'.constructor.getD []) ∨ _
  rw [h.constructor, h.members, List.mem_append, List.mem_append]
  change (x ∈ c.members.flatMap Holds.handles ∨ _) ↔
    ((x ∈ (c.members.filter (p.permits c)).flatMap Holds.handles ∨ _) ∨ _)
  simp only [List.mem_flatMap, List.mem_filter]
  refine ⟨?_, ?_⟩
  -- A member is permitted, and then it is left, or it is denied.
  · rintro (⟨m, hm, hx⟩ | hx)
    · cases hp : p.permits c m with
      | true => exact .inl (.inl ⟨m, ⟨hm, hp⟩, hx⟩)
      | false => exact .inr ⟨m, hm, hp, hx⟩
    · exact .inl (.inr hx)
  · rintro ((⟨m, ⟨hm, -⟩, hx⟩ | hx) | ⟨m, hm, -, hx⟩)
    · exact .inl ⟨m, hm, hx⟩
    · exact .inr hx
    · exact .inl ⟨m, hm, hx⟩

end HostClass

namespace World

/-- The world with another class in the place of one. -/
def withClass (w : World) (c : Ref .cls) (info : HostClass) : World :=
  { w with classes := w.classes.set c info }

/-- A class from which nothing but classes can be reached. -/
inductive Inert (w : World) : Handle → Prop where
  | intro (c : Ref .cls) (info : HostClass) (h : w.classes.get? c = some info)
      (hs : ∀ k ∈ handles info, w.Inert k) : w.Inert c.handle

variable {w w' : World}

/-- An inert class stays inert, since classes do not change. -/
theorem Inert.kept {h : Handle} (hi : w.Inert h)
    (hc : ∀ c info, w.classes.get? c = some info → w'.classes.get? c = some info) :
    w'.Inert h := by
  induction hi with
  | intro c info hinfo _ ih => exact .intro c info (hc c info hinfo) ih

/-- Only classes are inert. -/
theorem Inert.kind_eq {h : Handle} (hi : w.Inert h) : h.kind = .cls := by
  obtain ⟨c, _, _, _⟩ := hi
  rfl

/-- What an inert thing holds is inert. -/
theorem Inert.contents {h k : Handle} (hi : w.Inert h) (hk : k ∈ w.contents h) : w.Inert k := by
  obtain ⟨c, info, hinfo, hs⟩ := hi
  refine hs k ?_
  change k ∈ handles (w.classes.get? c) at hk
  rw [hinfo] at hk
  obtain ⟨i, hi, hk⟩ := List.mem_flatMap.mp hk
  rwa [← List.mem_singleton.mp hi]

end World

/-- A world has a class whose denied members nobody can see: the policy is that of every binding,
and what they refer to is held from outside or leads to nothing but classes. -/
structure Hides (p : Policy) (c : Ref .cls) (info : HostClass) (w : World) : Prop where
  stored : w.classes.get? c = some info
  policy : ∀ b x, w.bindings.get? b = some x → x.policy = p
  bridge : ∃ x, w.bindings.get? w.bridge = some x
  kept : ∀ m ∈ info.members, p.permits info m = false →
    ∀ h ∈ handles m, h ∈ w.held ∨ w.Inert h

namespace Hides

open World

variable {p : Policy} {c : Ref .cls} {info info' : HostClass} {w w' : World}

/-- What changes neither classes nor bindings keeps the class hidden, as long as what was held is held.
-/
theorem of_eq (h : Hides p c info w) (hc : w'.classes = w.classes)
    (hb : w'.bindings = w.bindings) (hbridge : w'.bridge = w.bridge)
    (hheld : ∀ x ∈ w.held, x ∈ w'.held) : Hides p c info w' where
  stored := by rw [hc]; exact h.stored
  policy b x hx := h.policy b x (by rw [← hb]; exact hx)
  bridge := by rw [hb, hbridge]; exact h.bridge
  kept m hm hp x hx := by
    rcases h.kept m hm hp x hx with hx | hx
    · exact .inl (hheld x hx)
    · exact .inr (hx.kept fun d i hd => by rw [hc]; exact hd)

/-! ### The same things live -/

/-- The same things were made. -/
theorem things_withClass (w : World) (c : Ref .cls) (info : HostClass) :
    (w.withClass c info).things = w.things := by
  simp [withClass, things, Store.refs, Store.set]

/-- All things but the class hold what they held. -/
theorem contents_withClass_ne {x : Handle} (hx : x ≠ c.handle) :
    (w.withClass c info).contents x = w.contents x := by
  obtain ⟨k, i⟩ := x
  cases k with
  | cls =>
    have hne : (⟨i⟩ : Ref .cls) ≠ c := fun h => hx (by rw [← h]; rfl)
    change handles ((w.classes.set c info).get? ⟨i⟩) = handles (w.classes.get? ⟨i⟩)
    rw [Store.get?_set_ne _ _ hne]
  | _ => rfl

/-- Going up one generation from things that are neither held nor inert, the denied members do not
matter. -/
theorem holders_withClass (h : Hides p c info w) (hpruned : info.Pruned p info')
    {hs : List Handle} (hroot : ∀ x ∈ hs, x ∉ w.roots) (hinert : ∀ x ∈ hs, ¬ w.Inert x) :
    holders (w.withClass c info').holdings hs = holders w.holdings hs := by
  have hholders (v : World) : holders v.holdings hs =
      v.things.filter fun a => (v.contents a).any hs.contains := by
    simp [holders, holdings, List.filter_map, Function.comp_def]
  rw [hholders, hholders, things_withClass]
  refine List.filter_congr fun a _ => ?_
  -- Only the class itself holds less than it did.
  by_cases ha : a = c.handle
  · subst ha
    have hnew : (w.withClass c info').contents c.handle = handles (some info') := by
      change handles ((w.classes.set c info').get? c) = _
      rw [Store.get?_set, if_pos rfl, h.stored, Option.map_some]
    have hold : w.contents c.handle = handles (some info) := congrArg handles h.stored
    rw [hnew, hold, Bool.eq_iff_iff]
    simp only [List.any_eq_true, List.contains_iff_mem, mem_handles_some]
    refine ⟨?_, ?_⟩
    · rintro ⟨x, hx, hxs⟩
      exact ⟨x, hpruned.handles.mpr (.inl hx), hxs⟩
    · rintro ⟨x, hx, hxs⟩
      rcases hpruned.handles.mp hx with hx | ⟨m, hm, hdenied, hx⟩
      · exact ⟨x, hx, hxs⟩
      · -- What a denied member holds was excluded: it is held, or it is inert.
        rcases h.kept m hm hdenied x hx with hheld | hx
        · have hmem : x ∈ w.roots := mem_roots.mpr (.inl hheld)
          exact absurd hmem (hroot x hxs)
        · exact absurd hx (hinert x hxs)
  · rw [contents_withClass_ne ha]

/-- What is alive is found from those that hold it, so it is the same. -/
theorem heldWithin_withClass (h : Hides p c info w) (hpruned : info.Pruned p info') (n : Nat)
    {hs : List Handle} (hinert : ∀ x ∈ hs, ¬ w.Inert x) :
    heldWithin w.roots (w.withClass c info').holdings n hs =
      heldWithin w.roots w.holdings n hs := by
  -- Where nothing is a root yet, the next generation is the same, and not inert either.
  induction n generalizing hs with
  | zero => cases hs <;> rfl
  | succ n ih =>
    cases hs with
    | nil => rfl
    | cons y ys =>
      unfold heldWithin
      cases hany : (y :: ys).any w.roots.contains with
      | true => rfl
      | false =>
        have hroot : ∀ x ∈ y :: ys, x ∉ w.roots := by
          intro x hx hmem
          have := List.any_eq_false.mp hany x hx
          simp [hmem] at this
        rw [h.holders_withClass hpruned hroot hinert, ih]
        intro a ha hi
        obtain ⟨x, hx, ks, hks, hxk⟩ := mem_holders.mp ha
        obtain ⟨a', -, heq⟩ := List.mem_map.mp hks
        obtain ⟨rfl, rfl⟩ := Prod.mk.inj heq
        exact hinert x hx (hi.contents hxk)

/-! ### Nobody can tell -/

/-- Every binding has the policy, also the one that stands in for a missing one. -/
theorem binding_policy (h : Hides p c info w) (b : BindingRef) : (w.binding b).policy = p := by
  unfold World.binding
  cases hb : w.bindings.get? b with
  | some x => exact h.policy b x hb
  | none =>
    obtain ⟨x, hx⟩ := h.bridge
    rw [hx]
    exact h.policy w.bridge x hx

/-- Other classes are as they were. -/
theorem cls_withClass_ne (w : World) (info : HostClass) {d : ClassRef} (hd : d.ref ≠ c) :
    (w.withClass c info).cls d = w.cls d := by
  change ((w.classes.set c info).get? d.ref).getD default = _
  rw [Store.get?_set_ne _ _ hd]
  rfl

/-- The class itself has become the pruned one. -/
theorem cls_withClass (h : Hides p c info w) {d : ClassRef} (hd : d.ref = c) :
    (w.withClass c info').cls d = info' ∧ w.cls d = info := by
  subst hd
  constructor
  · change ((w.classes.set d.ref info').get? d.ref).getD default = _
    rw [Store.get?_set, if_pos rfl, h.stored]
    rfl
  · unfold World.cls
    rw [h.stored]
    rfl

/-- **The world without the denied members looks the same.** -/
theorem alike (h : Hides p c info w) (hname : p.ByName) (hpruned : info.Pruned p info') :
    w.Alike (w.withClass c info') where
  rest := rfl
  size := Store.size_set _ _ _
  alive hs x hx := by
    have hheld : Hides p c info { w with held := hs ++ w.held } :=
      h.of_eq rfl rfl rfl fun _ hx => List.mem_append_right _ hx
    have hinert : ∀ y ∈ [x], ¬ ({ w with held := hs ++ w.held } : World).Inert y := by
      intro y hy hi
      rw [List.mem_singleton.mp hy] at hi
      exact hx hi.kind_eq
    have heq := hheld.heldWithin_withClass hpruned w.things.length hinert
    -- The search goes as deep in both worlds, since there are as many things.
    have hlength : (w.withClass c info').things.length = w.things.length :=
      congrArg List.length (things_withClass w c info')
    change heldWithin _ _ (w.withClass c info').things.length [x] =
      heldWithin _ _ w.things.length [x]
    rw [hlength]
    exact heq
  resolve b d k i := by
    by_cases hd : d.ref = c
    · obtain ⟨hnew, hold⟩ := h.cls_withClass hd
      rw [hnew, hold]
      -- Resolution filters by the policy once more, which changes nothing.
      change (w.binding b).resolve info' k i = _
      unfold Binding.resolve
      cases (w.binding b).visibility i with
      | none => rfl
      | some v =>
        have hsame (m : Member) : p.permits info' m = p.permits info m :=
          hname info' info m hpruned.name
        simp only [h.binding_policy, hpruned.resolve, List.filter_filter, hsame, Bool.and_self]
    · rw [cls_withClass_ne w info' hd]
      rfl
  payloads d := by
    by_cases hd : d.ref = c
    · obtain ⟨hnew, hold⟩ := h.cls_withClass hd
      rw [hnew, hold, hpruned.payload]
    · rw [cls_withClass_ne w info' hd]
  constructor d := by
    by_cases hd : d.ref = c
    · obtain ⟨hnew, hold⟩ := h.cls_withClass hd
      rw [hnew, hold, hpruned.constructor]
    · rw [cls_withClass_ne w info' hd]
  display d := by
    by_cases hd : d.ref = c
    · obtain ⟨hnew, hold⟩ := h.cls_withClass hd
      rw [hnew, hold, hpruned.display]
    · rw [cls_withClass_ne w info' hd]

end Hides

/-! ### Running hides -/

/-- The policies of bindings stay, and no binding is made, unless one looks at declarations. -/
theorem Effects.policies {l : License} {b : Bool} {w w' : World} (h : Effects l b w w')
    (hl : l.seeing = false) (via : BindingRef) :
    (w'.bindings.get? via).map Binding.policy = (w.bindings.get? via).map Binding.policy := by
  induction h with
  | trans _ _ ih ih' => exact ih'.trans ih
  | hold _ _ ih | lent _ _ _ _ ih | called _ _ _ ih | resumed _ _ _ ih => exact ih
  -- New bindings come under a license that sees the policy.
  | binding w c hs => simp [hl] at hs
  -- A proxy that is made changes the cache of its binding only.
  | wrapped w via' o _ =>
    unfold World.withProxy
    simp only [Store.get?_set]
    split
    · next heq =>
      subst heq
      cases hb : w.bindings.get? via with
      | none => rfl
      | some x => simp [World.binding, hb]
    · rfl
  | _ => rfl

namespace Hides

open World

variable {p : Policy} {c : Ref .cls} {info info' : HostClass} {w w' : World}

/-- **What acts do keeps the class hidden.** -/
theorem effects {l : License} {b : Bool} (h : Hides p c info w) (he : Effects l b w w')
    (hl : l.seeing = false) : Hides p c info w' where
  stored := he.class_kept h.stored
  -- The policy of a binding is what it was.
  policy via x hx := by
    have heq := he.policies hl via
    rw [hx, Option.map_some] at heq
    obtain ⟨y, hy, hpolicy⟩ := Option.map_eq_some_iff.mp heq.symm
    exact hpolicy.symm.trans (h.policy via y hy)
  bridge := by
    obtain ⟨x, hx⟩ := h.bridge
    have heq := he.policies hl w.bridge
    rw [hx, ← he.fixed.bridge] at heq
    obtain ⟨y, hy, -⟩ := Option.map_eq_some_iff.mp heq
    exact ⟨y, hy⟩
  -- What was held is held, and what was inert is.
  kept m hm hp x hx := by
    rcases h.kept m hm hp x hx with hx | hx
    · exact .inl (by rw [he.fixed.held]; exact hx)
    · exact .inr (hx.kept fun _ _ hd => he.class_kept hd)

/-- A new proxy is cached alike in both worlds. -/
theorem withProxy_withClass (h : Hides p c info w) (hname : p.ByName)
    (hpruned : info.Pruned p info') (via : BindingRef) (o : ObjectRef) :
    (w.withClass c info').withProxy via o = (w.withProxy via o).withClass c info' := by
  have hpushed : Hides p c info
      { w with userdata := w.userdata.push (.proxy ⟨some (.object o), via, o.cls.name⟩) } :=
    h.of_eq rfl rfl rfl fun _ hx => hx
  have halive := funext (hpushed.alike hname hpruned).alive_userdata
  unfold World.withProxy
  simp only [withClass] at halive ⊢
  rw [halive]
  rfl

end Hides

namespace Act

open World

/-- **An act that looks at no declarations does the same in both worlds.** -/
theorem Composed.withClass {l : License} {b : Bool} {K : Set Mention} {ε α : Type} [Names ε]
    {m : Act ε α} {Q : Set Mention → α → Prop} (h : Composed l b K m Q) (hl : l.seeing = false) {p : Policy}
    {c : Ref .cls} {info info' : HostClass} (hname : p.ByName) (hpruned : info.Pruned p info')
    {w : World} (hh : Hides p c info w) (hw : w.Within l) :
    m.outcome (w.withClass c info') = ((m.outcome w).1, (m.outcome w).2.withClass c info') := by
  -- Looks are told apart by `alike`; whatever changes the world does not touch the class, and so
  -- commutes with putting another one in its place.
  induction h generalizing w with
  | pure | throw => rfl
  | @bind _ _ _ _ _ _ m f P Q hm _ ihm ihf =>
    have hfirst := ihm hh hw
    have heff := (hm.effects hw).1
    rcases hout : m.outcome w with ⟨e | a, w₁⟩
    · rw [hout] at hfirst
      rw [outcome_bind_error hout, outcome_bind_error hfirst]
    · rw [hout] at hfirst heff
      rw [outcome_bind_ok hout, outcome_bind_ok hfirst]
      obtain ⟨K', hK, hP⟩ := hm.gives hw hout
      exact ihf hK a hP (hh.effects heff hl) (heff.within hw)
  | attempt _ ih =>
    rw [outcome_attempt, ih hh hw]
    rfl
  | @mapError _ _ _ _ _ _ _ m P f hf _ hm ih =>
    have heff := (hm.effects hw).1
    rw [outcome_mapError, outcome_mapError, ih hh hw]
    rcases hout : m.outcome w with ⟨e | a, w₁⟩
    · rw [hout] at heff
      have halike := (hh.effects heff hl).alike hname hpruned
      simp only [hf _ _ halike]
    · rfl
  | weaken _ _ ih => exact ih hh hw
  | @holding _ _ _ _ _ m P hs _ ih =>
    have hheld : Hides p c info { w with held := hs ++ w.held } :=
      hh.of_eq rfl rfl rfl fun _ hx => List.mem_append_right _ hx
    have hrun := ih hheld ⟨hw.functions, hw.classes, hw.vars⟩
    have hrun' : m.outcome { w.withClass c info' with held := hs ++ (w.withClass c info').held } =
      _ := hrun
    rw [outcome_holding, outcome_holding, hrun']
    rfl
  | look f hf _ =>
    rcases hf with hs | hf
    · rw [hl] at hs
      cases hs
    · rw [outcome_look, hf _ _ (hh.alike hname hpruned)]
      rfl
  | failWith f hf _ =>
    rw [outcome_failWith, hf _ _ (hh.alike hname hpruned)]
    rfl
  | newTable | newFunction | newCarrier | newForeign | newProxy | newObject
  | newCoroutine | started | log | assign | drop => rfl
  | writeTable r key value fail _ _ _ ih =>
    have htable : (w.withClass c info').table r = w.table r := rfl
    rw [outcome_bind_ok (outcome_look _ w), outcome_bind_ok (outcome_look _ _), htable]
    cases (w.table r).set key value with
    | ok t => rfl
    | error fault => exact ih fault hh hw
  | instantiate d q _ =>
    rw [outcome_instantiate, outcome_instantiate, (hh.alike hname hpruned).payloads]
    split <;> rfl
  | lookUp via t k _ other _ ih =>
    rw [outcome_bind_ok (outcome_look _ w), outcome_bind_ok (outcome_look _ _),
      (hh.alike hname hpruned).resolve]
    generalize hms : (w.binding via).resolve (w.cls t.cls) k t.isInstance = ms
    by_cases hmethod : ∃ m, ms = [.method m]
    · obtain ⟨m, rfl⟩ := hmethod
      rfl
    · rw [methodOr_of_ne fun m hm => hmethod ⟨m, hm⟩]
      exact ih (Set.subset_univ _) ms (hms ▸ hw.resolve _ _ _ _) (.univ ms) hh hw
  | newClass d _ _ _ =>
    have hpush := Store.set_push d info' hh.stored
    unfold Act.newClass
    simp only [outcome_make, World.withClass, Store.next_set, hpush]
  | newBinding _ hs => simp [hl] at hs
  | dispose u =>
    have hproxy : (w.withClass c info').proxy? u = w.proxy? u := rfl
    rw [outcome_dispose, outcome_dispose, hproxy]
    cases w.proxy? u <;> rfl
  | guard inCoroutine name _ => cases inCoroutine <;> rfl
  | writeSlot o slot v _ _ =>
    have hobject : (w.withClass c info').object o = w.object o := rfl
    rw [outcome_writeSlot, outcome_writeSlot, hobject]
    cases (w.object o).refusal? true .slots <;> rfl
  | @whileBorrowed _ _ _ _ _ m _ o mutably fail _ _ ih =>
    have hobject : (w.withClass c info').object o = w.object o := rfl
    rw [outcome_whileBorrowed, outcome_whileBorrowed, hobject]
    cases (w.object o).refusal? mutably .slots with
    | some e => rfl
    | none =>
      have hlent : Hides p c info { w with
          objects := w.objects.set o.ref { w.object o with
            borrow := ((w.object o).lend mutably).getD (w.object o).borrow } } :=
        hh.of_eq rfl rfl rfl fun _ hx => hx
      have hrun : m.outcome { w.withClass c info' with
          objects := (w.withClass c info').objects.set o.ref { w.object o with
            borrow := ((w.object o).lend mutably).getD (w.object o).borrow } } = _ :=
        ih hlent ⟨hw.functions, hw.classes, hw.vars⟩
      simp only [hrun]
      rfl
  | proxyFor via o _ =>
    rw [outcome_proxyFor, outcome_proxyFor, (hh.alike hname hpruned).cachedProxy?_eq,
      hh.withProxy_withClass hname hpruned]
    cases w.cachedProxy? via o <;> rfl
  | @framed _ b' _ _ _ _ m _ f _ _ ih =>
    have hentered : Hides p c info (w.entered b' f) := hh.of_eq rfl rfl rfl fun _ hx => hx
    have hrun : m.outcome ((w.withClass c info').entered b' f) = _ :=
      ih hentered ⟨hw.functions, hw.classes, hw.vars⟩
    rw [outcome_framed, outcome_framed, hrun]
    rfl
  | resume call d args _ ih =>
    have hcoroutine : (w.withClass c info').coroutine d = w.coroutine d := rfl
    rw [outcome_resume, outcome_resume, hcoroutine]
    cases (w.coroutine d).status with
    | running => rfl
    | dead => rfl
    | suspended =>
      have hresuming : Hides p c info (w.resuming d) := hh.of_eq rfl rfl rfl fun _ hx => hx
      have hrun : (call true (w.coroutine d).function args).outcome
          ((w.withClass c info').resuming d) = _ :=
        ih (w.coroutine d).function hresuming ⟨hw.functions, hw.classes, hw.vars⟩
      simp only [hrun]
      rfl

end Act

end ScriptHost
