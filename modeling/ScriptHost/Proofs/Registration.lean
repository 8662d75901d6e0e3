import ScriptHost.Proofs.BuiltClass
import Mathlib.Data.List.Induction

/-!
# Which classes can be built

Building compares each member with those before it only, through the index it is making. `Fault` says
on its own what can be wrong with a declaration after the ones before it, and in which order that is
checked. Lists of members without a fault are those that can be declared (`declarable_iff_faultless`),
and every other list has a first fault (`declarable_or_firstFault`); the index is refused for that
one (`indexFrom_firstFault`). So the loop misses no pair, and which error it gives is settled by the
declarations alone.
-/

set_option autoImplicit false

namespace ScriptHost

namespace HostClass

open MemberIndex

/-- What is wrong with a declaration that comes after the others: its name is blank, or it is the
name of one of them and the two are not both methods. -/
inductive Fault (cls : String) (before : List Member) (m : Member) : DeclarationError → Prop where
  | blank (h : Text.isBlank m.name = true) : Fault cls before m (.invalidName m.name)
  | taken (hnamed : Text.isBlank m.name = false) (a : Member) (ha : a ∈ before)
      (hname : a.name = m.name) (hkinds : ¬ (a.isMethod = true ∧ m.isMethod = true)) :
      Fault cls before m (.duplicateMember cls m.name)

/-- No member is at fault after the ones before it. -/
def Faultless (cls : String) (ms : List Member) : Prop :=
  ∀ before m after e, ms = before ++ m :: after → ¬ Fault cls before m e

/-- The error of the first member that is at fault. -/
def FirstFault (cls : String) (ms : List Member) (e : DeclarationError) : Prop :=
  ∃ before m after, ms = before ++ m :: after ∧ Faultless cls before ∧ Fault cls before m e

variable {cls name : String} {all done rest ms xs ys : List Member} {x y : MemberIndex} {m : Member}
  {e : DeclarationError}

/-- Methods may share a name, and nothing else may. -/
theorem mayShareName_iff (a b : Member) :
    mayShareName a b = true ↔ a.isMethod = true ∧ b.isMethod = true := by
  simp [mayShareName]

/-! ### Members without a fault -/

/-- The first members of those that can be declared can be declared. -/
theorem Declarable.of_append (h : Declarable (xs ++ ys)) : Declarable xs where
  named m hm := h.named m (List.mem_append_left _ hm)
  apart := (List.pairwise_append.mp h.apart).1

/-- A member that can be declared after the others is not at fault. -/
theorem Declarable.not_fault (h : Declarable (done ++ [m])) : ¬ Fault cls done m e := by
  obtain ⟨-, hnamed, hbeside⟩ := declarable_snoc.mp h
  rintro (hblank | ⟨-, a, ha, hname, hkinds⟩)
  · rw [hnamed] at hblank
    cases hblank
  · exact hkinds ((mayShareName_iff a m).mp (hbeside a ha hname))

/-- Among members that can be declared nobody is at fault. -/
theorem Declarable.faultless (h : Declarable ms) : Faultless cls ms := by
  rintro before m after e rfl
  have hbefore : before ++ m :: after = (before ++ [m]) ++ after := by simp
  rw [hbefore] at h
  exact h.of_append.not_fault

/-- After members that can be declared, the next one can be declared too, or it is at fault. -/
theorem Declarable.snoc_or_fault (h : Declarable done) (cls : String) (m : Member) :
    Declarable (done ++ [m]) ∨ ∃ e, Fault cls done m e := by
  cases hblank : Text.isBlank m.name with
  | true => exact .inr ⟨_, .blank hblank⟩
  | false =>
    by_cases hbeside : ∀ a ∈ done, a.name = m.name → mayShareName a m = true
    · exact .inl (declarable_snoc.mpr ⟨h, hblank, hbeside⟩)
    · simp only [not_forall] at hbeside
      obtain ⟨a, ha, hname, hkinds⟩ := hbeside
      exact .inr ⟨_, .taken hblank a ha hname fun hboth => hkinds ((mayShareName_iff a m).mpr hboth)⟩

/-- **Members can be declared, or one of them is the first at fault.** -/
theorem declarable_or_firstFault (cls : String) (ms : List Member) :
    Declarable ms ∨ ∃ e, FirstFault cls ms e := by
  -- From the front: what comes later does not mend an earlier fault.
  induction ms using List.reverseRecOn with
  | nil => exact .inl declarable_nil
  | append_singleton done m ih =>
    rcases ih with hd | ⟨e, before, a, after, rfl, hbefore, hfault⟩
    · rcases hd.snoc_or_fault cls m with hd' | ⟨e, hfault⟩
      · exact .inl hd'
      · exact .inr ⟨e, done, m, [], rfl, hd.faultless, hfault⟩
    · exact .inr ⟨e, before, a, after ++ [m], by simp, hbefore, hfault⟩

/-- Members can be declared exactly if none of them is at fault. -/
theorem declarable_iff_faultless : Declarable ms ↔ Faultless cls ms := by
  refine ⟨Declarable.faultless, fun h => ?_⟩
  rcases declarable_or_firstFault cls ms with hd | ⟨e, before, m, after, hms, -, hfault⟩
  · exact hd
  · exact absurd hfault (h before m after e hms)

/-! ### The index finds the first fault -/

/-- A member at fault is refused for its fault. -/
theorem indexFrom_fault (hx : x.Indexed all done) (hfault : Fault cls done m e) :
    indexFrom cls all (m :: rest) done.length x = .error e := by
  unfold indexFrom
  cases hfault with
  | blank hblank => rw [if_pos hblank]
  | taken hnamed a ha hname hkinds =>
    have hclash : clashes all m (x.positions m.name) ≠ false := fun hno =>
      hkinds ((mayShareName_iff a m).mp ((clashes_iff hx).mp hno a ha hname))
    rw [hnamed, if_neg Bool.false_ne_true, if_pos (Bool.ne_false_iff.mp hclash)]

/-- The index goes through the members that can be declared and stops at the first that cannot. -/
theorem indexFrom_firstFault (before : List Member) (hx : x.Indexed all done)
    (hall : all = done ++ (before ++ m :: rest)) (hd : Declarable (done ++ before))
    (hfault : Fault cls (done ++ before) m e) :
    indexFrom cls all (before ++ m :: rest) done.length x = .error e := by
  induction before generalizing done x with
  | nil =>
    rw [List.append_nil] at hfault
    exact indexFrom_fault hx hfault
  | cons a before ih =>
    have happend : done ++ a :: before = (done ++ [a]) ++ before := by simp
    rw [happend] at hd hfault
    obtain ⟨-, hnamed, hbeside⟩ := declarable_snoc.mp hd.of_append
    have hrest := ih (hx.add (getElem?_split hall)) (by rw [hall]; simp) hd hfault
    rw [List.length_append] at hrest
    show indexFrom cls all (a :: (before ++ m :: rest)) done.length x = .error e
    unfold indexFrom
    rw [hnamed, (clashes_iff hx).mpr hbeside, if_neg Bool.false_ne_true, if_neg Bool.false_ne_true]
    exact hrest

/-! ### Building -/

variable {ctor : Option Slots} {display : Option (List DisplayPart)} {c : HostClass}

/-- A blank name of a class is refused first. -/
theorem build_of_blank (h : Text.isBlank name = true) (ms : List Member) (ctor : Option Slots)
    (display : Option (List DisplayPart)) :
    build name ms ctor display = .error (.invalidName name) := by
  unfold build
  rw [if_pos h]

/-- The first fault is the error. -/
theorem build_of_firstFault (hname : Text.isBlank name = false) (h : FirstFault name ms e)
    (ctor : Option Slots) (display : Option (List DisplayPart)) :
    build name ms ctor display = .error e := by
  obtain ⟨before, m, after, rfl, hbefore, hfault⟩ := h
  have hindex : indexFrom name (before ++ m :: after) (before ++ m :: after) 0 .empty = .error e :=
    indexFrom_firstFault before (indexed_empty _) rfl (declarable_iff_faultless.mpr hbefore) hfault
  unfold build
  rw [hname, if_neg Bool.false_ne_true, hindex]
  rfl

/-- A class is built if its name is not blank and its members can be declared. -/
theorem build_isOk_iff : (∃ c, build name ms ctor display = .ok c) ↔
    Text.isBlank name = false ∧ Declarable ms := by
  refine ⟨fun ⟨c, hc⟩ => ?_, fun ⟨hname, hd⟩ => build_of_declarable hname hd ctor display⟩
  obtain ⟨-, -, -, -, -, -, hname, hd⟩ := build_ok hc
  exact ⟨hname, hd⟩

/-- Otherwise the error is that of the name, or that of the first fault. -/
theorem build_error_iff : build name ms ctor display = .error e ↔
    (Text.isBlank name = true ∧ e = .invalidName name) ∨
      (Text.isBlank name = false ∧ FirstFault name ms e) := by
  refine ⟨fun h => ?_, ?_⟩
  · cases hname : Text.isBlank name with
    | true =>
      rw [build_of_blank hname] at h
      exact .inl ⟨rfl, (Except.error.inj h).symm⟩
    | false =>
      -- Without a fault the class would be built.
      rcases declarable_or_firstFault name ms with hd | ⟨e', hfault⟩
      · obtain ⟨c, hc⟩ := build_of_declarable hname hd ctor display
        rw [h] at hc
        cases hc
      · rw [build_of_firstFault hname hfault] at h
        obtain rfl := Except.error.inj h
        exact .inr ⟨rfl, hfault⟩
  · rintro (⟨hname, rfl⟩ | ⟨hname, hfault⟩)
    · exact build_of_blank hname ms ctor display
    · exact build_of_firstFault hname hfault ctor display

/-- Members that may all share one name are one member, or methods only. -/
theorem single_or_methods {S : List Member} {s : String} (hnames : ∀ m ∈ S, m.name = s)
    (hapart : S.Pairwise fun a b => a.name = b.name → mayShareName a b = true) :
    (∃ m, S = [m]) ∨ ∀ m ∈ S, m.isMethod = true := by
  rcases S with _ | ⟨a, _ | ⟨b, rest⟩⟩
  · exact .inr (List.forall_mem_nil _)
  · exact .inl ⟨a, rfl⟩
  · obtain ⟨ha, -⟩ := List.pairwise_cons.mp hapart
    have hsame : ∀ m ∈ b :: rest, a.isMethod = true ∧ m.isMethod = true := fun m hm =>
      (mayShareName_iff a m).mp <| ha m hm <|
        (hnames a List.mem_cons_self).trans (hnames m (List.mem_cons_of_mem a hm)).symm
    -- The first one is a method because of the second one, the others because of the first.
    refine .inr (List.forall_mem_cons.mpr ⟨(hsame b List.mem_cons_self).1, fun m hm => ?_⟩)
    exact (hsame m hm).2

/-- Two members at different places share a name only as methods. -/
theorem apart_iff_getElem : (ms.Pairwise fun a b => a.name = b.name → mayShareName a b = true) ↔
    ∀ (i j : Nat) (a b : Member), i ≠ j → ms[i]? = some a → ms[j]? = some b → a.name = b.name →
      a.isMethod = true ∧ b.isMethod = true := by
  rw [List.pairwise_iff_getElem]
  refine ⟨fun h i j a b hij ha hb hname => ?_, fun h i j hi hj hij hname => ?_⟩
  -- Of two members at different places one comes first, and the relation is the same both ways.
  · obtain ⟨hi, rfl⟩ := List.getElem?_eq_some_iff.mp ha
    obtain ⟨hj, rfl⟩ := List.getElem?_eq_some_iff.mp hb
    rcases Nat.lt_or_gt_of_ne hij with hlt | hlt
    · exact (mayShareName_iff _ _).mp (h i j hi hj hlt hname)
    · exact ((mayShareName_iff _ _).mp (h j i hj hi hlt hname.symm)).symm
  · exact (mayShareName_iff _ _).mpr <| h i j _ _ (Nat.ne_of_lt hij)
      (List.getElem?_eq_getElem hi) (List.getElem?_eq_getElem hj) hname

/-- **Exactly the well-formed classes can be built.** The name of the class and those of all members
are not blank, and any two members with the same name are both methods. Otherwise the error is that
of a blank class name, or else that of the first member at fault: a blank name, which is checked
first, or a name that an earlier member has while not both are methods. In a class that was built, a
name finds the declared members of that name, in order, and these are one member or methods only. -/
theorem build_accepts_well_formed (name : String) (ms : List Member) (ctor : Option Slots)
    (display : Option (List DisplayPart)) :
    ((∃ c, build name ms ctor display = .ok c) ↔
      Text.isBlank name = false ∧ (∀ m ∈ ms, Text.isBlank m.name = false) ∧
        ∀ (i j : Nat) (a b : Member), i ≠ j → ms[i]? = some a → ms[j]? = some b → a.name = b.name →
          a.isMethod = true ∧ b.isMethod = true) ∧
    (∀ e, build name ms ctor display = .error e ↔
      (Text.isBlank name = true ∧ e = .invalidName name) ∨
        (Text.isBlank name = false ∧ FirstFault name ms e)) ∧
    ∀ c, build name ms ctor display = .ok c →
      c.name = name ∧ c.members = ms ∧ c.constructor = ctor ∧ c.display = display ∧
        ∀ s, c.membersNamed s = (ms.filter fun m => m.name == s) ∧
          ((∃ m, c.membersNamed s = [m]) ∨ ∀ m ∈ c.membersNamed s, m.isMethod = true) := by
  refine ⟨?_, fun e => build_error_iff, fun c hc => ?_⟩
  · rw [build_isOk_iff]
    refine and_congr_right fun _ => ⟨fun h => ⟨h.named, apart_iff_getElem.mp h.apart⟩, ?_⟩
    exact fun h => ⟨h.1, apart_iff_getElem.mpr h.2⟩
  · obtain ⟨hname, -, hms, hctor, hdisplay, -, -, hd⟩ := build_ok hc
    refine ⟨hname, hms, hctor, hdisplay, fun s => ⟨membersNamed_of_build hc s, ?_⟩⟩
    rw [membersNamed_of_build hc]
    exact single_or_methods (fun m hm => beq_iff_eq.mp (List.mem_filter.mp hm).2)
      (hd.filter fun m => m.name == s).apart

end HostClass

namespace LampClass

/-- One of the methods of this name. -/
def light (params : List HostType) : Member := .method ⟨"Light", params, false, true, []⟩

/-- A label. -/
def label : Member := .field ⟨"Label", .string, true, "label", none⟩

/-- A field with the name of the methods. -/
def lit : Member := .field ⟨"Light", .bool, true, "lit", none⟩

/-- The class that is built of two methods and a label. -/
def lamp : HostClass where
  name := "Lamp"
  holds := .slots
  members := [light [], label, light [.any]]
  index := ⟨[("Light", [0, 2]), ("Label", [1])], []⟩
  constructor := none
  display := none

/-- The members before the field can be declared. -/
theorem declarable_label_light : HostClass.Declarable [label, light []] where
  named m hm := by
    rcases List.mem_cons.mp hm with rfl | hm
    · rfl
    · rw [List.mem_singleton.mp hm]
      rfl
  apart := List.pairwise_pair.mpr fun h => absurd h (by decide)

end LampClass

open LampClass HostClass in
/-- Overloads with a member between them make a class. A field clashes with a method before it, and
the label that comes a second time after that is not looked at any more. -/
theorem build_accepts_well_formed_lamp :
    build "Lamp" [light [], label, light [.any]] none none = .ok lamp ∧
    lamp.membersNamed "Light" = [light [], light [.any]] ∧
    (∀ m ∈ lamp.membersNamed "Light", m.isMethod = true) ∧
    build "Lamp" [label, light [], lit, label] none none =
      .error (.duplicateMember "Lamp" "Light") := by
  have hbuilt : build "Lamp" [light [], label, light [.any]] none none = .ok lamp := rfl
  obtain ⟨-, -, hok⟩ := build_accepts_well_formed "Lamp" [light [], label, light [.any]] none none
  obtain ⟨-, -, -, -, hnamed⟩ := hok lamp hbuilt
  obtain ⟨hlight, hkinds⟩ := hnamed "Light"
  have htwo : lamp.membersNamed "Light" = [light [], light [.any]] := hlight
  refine ⟨hbuilt, htwo, hkinds.resolve_left ?_, ?_⟩
  · rintro ⟨m, hm⟩
    rw [htwo] at hm
    cases hm
  · have hfault : FirstFault "Lamp" [label, light [], lit, label] (.duplicateMember "Lamp" "Light") :=
      ⟨[label, light []], lit, [label], rfl, declarable_label_light.faultless,
        .taken rfl (light []) (by simp) rfl nofun⟩
    obtain ⟨-, herror, -⟩ := build_accepts_well_formed "Lamp" [label, light [], lit, label] none none
    exact (herror _).mpr (.inr ⟨rfl, hfault⟩)

end ScriptHost
