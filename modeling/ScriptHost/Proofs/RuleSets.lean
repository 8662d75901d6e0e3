import ScriptHost.Proofs.OneMember

/-!
# A rule set only hides

Leaving out candidates can make an ambiguous lookup unambiguous. Under a rule set it cannot: rules
speak of names only, and what a string finds in a class that was built all has that name. So the
members that are found share one decision, and a lookup under a rule set gives what it gives when
everything is permitted, or nothing (`Binding.resolve_under_rules`).

Two worlds are compared, which differ in the policy of the binding that the proxy was made by
(`World.under`). `World.Addresses` and `World.Misses` say what becomes of a read and of a write in
one of them.
-/

set_option autoImplicit false

namespace ScriptHost

open Act

/-! ### Another policy -/

/-- The binding with another policy. -/
def Binding.under (b : Binding) (policy : Policy) : Binding := { b with policy := policy }

/-- The world in which a binding has another policy. -/
def World.under (w : World) (b : BindingRef) (policy : Policy) : World :=
  { w with bindings := w.bindings.set b ((w.binding b).under policy) }

/-- Under a rule set the decision depends on the names. -/
theorem Policy.permits_rules (r : RuleSet) (c : HostClass) (m : Member) :
    (Policy.rules r).permits c m = (r.decide c.name m.name).isPermit := rfl

namespace Binding

variable {name : String} {ms : List Member} {ctor : Option Slots}
  {display : Option (List DisplayPart)} {c : HostClass}

/-- **A name is permitted or it is not.** Under a rule set a lookup by name gives what it gives when
everything is permitted, if the rules permit the name, and nothing otherwise. -/
theorem resolve_under_rules (h : HostClass.build name ms ctor display = .ok c) (b : Binding)
    (r : RuleSet) (s : String) (onInstance : Bool) :
    (b.under (.rules r)).resolve c (.name s) onInstance =
      if (r.decide name s).isPermit then
        (b.under .permitAll).resolve c (.name s) onInstance
      else [] := by
  obtain ⟨hname, -⟩ := HostClass.build_ok h
  have hflags (policy : Policy) : (b.under policy).visibility onInstance =
      b.visibility onInstance := rfl
  unfold resolve
  rw [hflags, hflags]
  cases b.visibility onInstance with
  | none => exact (ite_self []).symm
  | some v =>
    -- All that the name finds has the name, so the rules decide for all of it at once.
    have hdecision : ∀ m ∈ v.resolve c (.name s),
        (b.under (.rules r)).policy.permits c m = (r.decide name s).isPermit := by
      intro m hm
      rw [Visibility.resolve_eq_filter h] at hm
      simp only [MemberKey.addresses, List.mem_filter, Bool.and_eq_true, beq_iff_eq] at hm
      show (Policy.rules r).permits c m = _
      rw [Policy.permits_rules, hname, hm.2.2]
    have hall : ∀ m ∈ v.resolve c (.name s), (b.under .permitAll).policy.permits c m = true :=
      fun _ _ => rfl
    show (v.resolve c (.name s)).filter _ = if _ then (v.resolve c (.name s)).filter _ else []
    rw [List.filter_congr hdecision, List.filter_eq_self.mpr hall]
    cases (r.decide name s).isPermit <;> simp

end Binding

/-! ### What a name comes to -/

/-- The name denotes this member, and reading and writing go to it. -/
structure World.Addresses (w : World) (p : Proxy) (t : Target) (s : String) (m : Member) :
    Prop where
  found : w.Finds p t (.string s) [m]
  read : (readProxy p (.string s)).outcome w = (readChosen p.via t [m]).outcome w
  write : ∀ v, (writeProxy p (.string s) v).outcome w =
    (assignMember (toHost p.via) p.via t.cls t.receiver? m v).outcome w

/-- The name is as good as missing: nil is read, a write finds no member, and nothing happens. -/
structure World.Misses (w : World) (p : Proxy) (t : Target) (s : String) : Prop where
  read : (readProxy p (.string s)).outcome w = (.ok .nil, w)
  write : ∀ v, (writeProxy p (.string s) v).outcome w =
    (.error (.binding (.memberNotFound t.cls.name s)), w)

namespace World.Finds

variable {w : World} {p : Proxy} {t : Target} {s : String} {S : List Member} {m : Member}

/-- One member that is found is addressed. -/
theorem addresses (h : w.Finds p t (.string s) [m]) : w.Addresses p t s m where
  found := h
  read := outcome_readProxy h
  write v := outcome_writeProxy h v

/-- Where not exactly one is found the name is missed. -/
theorem misses (h : w.Finds p t (.string s) S) (hS : ∀ m, S ≠ [m]) : w.Misses p t s where
  read := by
    rw [outcome_readProxy h, readChosen_of_ne hS]
    rfl
  write v := by
    rw [outcome_writeProxy h, writeChosen_of_ne hS]
    rfl

/-- What is found is settled. -/
theorem eq {S' : List Member} (h : w.Finds p t (.string s) S) (h' : w.Finds p t (.string s) S') :
    S = S' := h.found.symm.trans h'.found

end World.Finds

/-- What the name finds when everything is permitted is found under the rule set as well, or
nothing is. -/
theorem World.finds_or_hidden {w : World} {p : Proxy} {t : Target} {b : Binding} {r : RuleSet}
    {name : String} {ms : List Member} {ctor : Option Slots} {display : Option (List DisplayPart)}
    (hp : p.target = some t) (hreach : w.reach? t = some t)
    (hclass : HostClass.build name ms ctor display = .ok (w.cls t.cls))
    (hbinding : w.bindings.get? p.via = some b) (hrules : b.policy = .rules r) (s : String) :
    ∃ S, (w.under p.via .permitAll).Finds p t (.string s) S ∧
      (w.Finds p t (.string s) S ∨ w.Finds p t (.string s) []) := by
  -- The binding is as its policy says, and with everything permitted it only differs in that.
  have hold : w.binding p.via = b.under (.rules r) := by
    have hsame : b.under (.rules r) = b := by rw [← hrules]; rfl
    unfold World.binding
    rw [hbinding, hsame]
    rfl
  have hnew : (w.under p.via .permitAll).binding p.via = b.under .permitAll := by
    show (((w.bindings.set p.via _).get? p.via).getD _ : Binding) = _
    rw [Store.get?_set, if_pos rfl, hbinding, hold]
    rfl
  refine ⟨(b.under .permitAll).resolve (w.cls t.cls) (.name s) t.isInstance,
    ⟨hp, hreach, ?_⟩, ?_⟩
  · show ((w.under p.via .permitAll).binding p.via).resolve (w.cls t.cls) (.name s) _ = _
    rw [hnew]
  · have hresolve := Binding.resolve_under_rules hclass b r s t.isInstance
    rw [← hold] at hresolve
    cases hpermit : (r.decide name s).isPermit with
    | true =>
      rw [if_pos hpermit] at hresolve
      exact .inl ⟨hp, hreach, hresolve⟩
    | false =>
      rw [if_neg (Bool.eq_false_iff.mp hpermit)] at hresolve
      exact .inr ⟨hp, hreach, hresolve⟩

/-- **A rule set only hides.** A proxy stands for a class that was built, or for an object of one
that is alive, and its binding has a rule set as its policy and any flags. Every name denotes under
the rule set the one member that it denotes where everything is permitted, and then reading and
writing go to this member in both worlds; or it is as good as missing. A name that does not denote a
single member where everything is permitted is missing. -/
theorem rule_set_only_hides {w : World} {p : Proxy} {t : Target} {b : Binding} {r : RuleSet}
    {name : String} {ms : List Member} {ctor : Option Slots} {display : Option (List DisplayPart)}
    (hp : p.target = some t) (hreach : w.reach? t = some t)
    (hclass : HostClass.build name ms ctor display = .ok (w.cls t.cls))
    (hbinding : w.bindings.get? p.via = some b) (hrules : b.policy = .rules r) (s : String) :
    ((∃ m, (w.under p.via .permitAll).Addresses p t s m ∧ w.Addresses p t s m) ∨
      w.Misses p t s) ∧
    ((∀ m, ¬ (w.under p.via .permitAll).Finds p t (.string s) [m]) → w.Misses p t s) := by
  -- One member is found in both worlds, or there is none to go to under the rules.
  obtain ⟨S, hall, hfound | hnone⟩ :=
    World.finds_or_hidden hp hreach hclass hbinding hrules s
  · by_cases hS : ∃ m, S = [m]
    · obtain ⟨m, rfl⟩ := hS
      exact ⟨.inl ⟨m, hall.addresses, hfound.addresses⟩, fun hno => absurd hall (hno m)⟩
    · have hmisses := hfound.misses fun m hm => hS ⟨m, hm⟩
      exact ⟨.inr hmisses, fun _ => hmisses⟩
  · have hmisses := hnone.misses fun m hm => List.cons_ne_nil m [] hm.symm
    exact ⟨.inr hmisses, fun _ => hmisses⟩

namespace RuleSets

open OneMember

/-- Of stoves the label and one name of two methods are permitted, and nothing else. -/
def listed : RuleSet :=
  (RuleSet.denyByDefault.add (.ofClassMember "Stove" "Label") .permit).add
    (.ofClassMember "Stove" "Light") .permit

/-- A binding with these rules. -/
def binding : Binding := { Binding.ofConfig .default with policy := .rules listed }

/-- The kitchen under the rules. -/
def orderly : World := { kitchen with bindings := Store.empty.push binding }

end RuleSets

open OneMember RuleSets in
/-- The label is what it is without the rules, the code is hidden by them, and of the two methods none
becomes reachable. -/
theorem rule_set_only_hides_stove :
    orderly.Addresses proxy target "Label" label ∧ orderly.Misses proxy target "Code" ∧
    orderly.Misses proxy target "Light" := by
  have hreach : orderly.reach? target = some target := by decide +kernel
  have hbuild : HostClass.build "Stove" stoveMembers none none = .ok (orderly.cls target.cls) := rfl
  have hrule := @rule_set_only_hides orderly proxy target binding listed "Stove" stoveMembers none
    none rfl hreach hbuild rfl rfl
  -- What a name finds is computed for each of the three.
  have hfinds (s : String) : orderly.Finds proxy target (.string s)
      ((orderly.binding ⟨0⟩).resolve stove (.name s) true) := ⟨rfl, hreach, rfl⟩
  have hlabel : orderly.Finds proxy target (.string "Label") [label] := hfinds "Label"
  have hcode : orderly.Finds proxy target (.string "Code") [] := hfinds "Code"
  refine ⟨?_, ?_, (hrule "Light").2 ?_⟩
  · rcases (hrule "Label").1 with ⟨m, -, hm⟩ | hmisses
    · obtain rfl : m = label := (List.cons.inj (hm.found.eq hlabel)).1
      exact hm
    · -- A missing name could not be written, and the label can.
      have hwritten := hlabel.addresses.write (.string "hot")
      rw [hmisses.write] at hwritten
      cases hwritten
  · rcases (hrule "Code").1 with ⟨m, -, hm⟩ | hmisses
    · cases hm.found.eq hcode
    · exact hmisses
  · -- Where everything is permitted, the name finds both methods.
    intro m hm
    have hboth : (orderly.under ⟨0⟩ .permitAll).Finds proxy target (.string "Light")
        [light [], light [.any]] := ⟨rfl, hreach, rfl⟩
    cases hm.eq hboth

end ScriptHost
