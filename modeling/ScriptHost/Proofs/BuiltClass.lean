import ScriptHost.Class.Lookup

/-!
# Built classes

What building a class checks and what the index of a built class is good for. `Declarable` is the
condition on the members: no name is blank, and members that share a name may do so. It goes over to
every part of the members (`Declarable.filter`), so a class that was built can be built with members
left out (`HostClass.build_filter`).

The index of a built class gives what a scan of its members gives (`membersNamed_of_build`,
`indexers_of_build`): `Indexed` says so of the members entered so far, and entering one more keeps
it.
-/

set_option autoImplicit false

namespace ScriptHost

namespace MemberIndex

/-- The index knows the first members, by name and as indexed properties. -/
structure Indexed (x : MemberIndex) (all done : List Member) : Prop where
  named : ∀ s, (x.positions s).filterMap (fun i => all[i]?) = done.filter fun m => m.name == s
  indexed : x.indexers.filterMap (fun i => all[i]?) = done.filter Member.isIndexer

/-- A name is looked up from the front, and its first entry has all its positions. -/
theorem positions_cons (n s : String) (ps : List Nat) (rest : List (String × List Nat))
    (is : List Nat) :
    (MemberIndex.mk ((n, ps) :: rest) is).positions s =
      if n = s then ps else (MemberIndex.mk rest is).positions s := by
  unfold positions
  by_cases h : n = s
  · simp [h]
  · simp [h]

/-- A position is entered behind those of its name, and nowhere else. -/
theorem positions_addName (name s : String) (i : Nat) (names : List (String × List Nat))
    (is : List Nat) :
    (MemberIndex.mk (addName name i names) is).positions s =
      (MemberIndex.mk names is).positions s ++ if name = s then [i] else [] := by
  induction names with
  | nil =>
    by_cases hs : name = s
    · simp [addName, positions, hs]
    · simp [addName, positions, hs]
  -- The entry of a name is at the front, or the rest has it.
  | cons p rest ih =>
    obtain ⟨n, ps⟩ := p
    unfold addName
    by_cases hn : n = name
    · rw [if_pos hn, positions_cons, positions_cons, hn]
      by_cases hs : name = s
      · simp [hs]
      · simp [hs]
    · rw [if_neg hn, positions_cons, positions_cons, ih]
      by_cases hs : n = s
      · have hne : ¬ name = s := fun h => hn (hs.trans h.symm)
        simp [hs, hne]
      · simp [hs]

/-- The empty index knows no members. -/
theorem indexed_empty (all : List Member) : empty.Indexed all [] where
  named _ := rfl
  indexed := rfl

/-- Entering the next member keeps the index right. -/
theorem Indexed.add {x : MemberIndex} {all done : List Member} {m : Member}
    (h : x.Indexed all done) (hm : all[done.length]? = some m) :
    (x.add done.length m).Indexed all (done ++ [m]) where
  -- The positions of the member's own name have got one more, and the others are as they were.
  named s := by
    have hpos : (x.add done.length m).positions s =
        x.positions s ++ if m.name = s then [done.length] else [] :=
      positions_addName m.name s done.length x.byName _
    rw [hpos, List.filterMap_append, h.named, List.filter_append]
    by_cases hs : m.name = s
    · simp [hs, hm]
    · simp [hs]
  -- The indexed properties in the same way, if the member is one.
  indexed := by
    cases hi : m.isIndexer with
    | true => simp [MemberIndex.add, hi, h.indexed, hm]
    | false => simp [MemberIndex.add, hi, h.indexed]

end MemberIndex

namespace HostClass

open MemberIndex

/-- Members that a class can declare. -/
structure Declarable (ms : List Member) : Prop where
  named : ∀ m ∈ ms, Text.isBlank m.name = false
  apart : ms.Pairwise fun a b => a.name = b.name → mayShareName a b = true

/-- Members can be left out. -/
theorem Declarable.filter {ms : List Member} (h : Declarable ms) (p : Member → Bool) :
    Declarable (ms.filter p) where
  named m hm := h.named m (List.mem_filter.mp hm).1
  apart := h.apart.filter p

variable {cls name : String} {all done rest : List Member} {x y : MemberIndex} {m : Member}

/-- No clash is found exactly when the member may share its name with each earlier one that has it. -/
theorem clashes_iff (hx : x.Indexed all done) :
    clashes all m (x.positions m.name) = false ↔
      ∀ a ∈ done, a.name = m.name → mayShareName a m = true := by
  have hany : clashes all m (x.positions m.name) =
      ((x.positions m.name).filterMap fun i => all[i]?).any fun a => !mayShareName a m := by
    unfold clashes
    generalize x.positions m.name = ps
    induction ps with
    | nil => rfl
    | cons i ps ih =>
      cases hi : all[i]? <;> simp [hi, ih]
  rw [hany, hx.named]
  simp [List.any_filter, List.any_eq_false]

/-- There is nothing to be said against no members. -/
theorem declarable_nil : Declarable [] := ⟨nofun, .nil⟩

/-- A further member is declarable if its name is not blank and it may stand beside the earlier ones.
-/
theorem declarable_snoc : Declarable (done ++ [m]) ↔ Declarable done ∧
    Text.isBlank m.name = false ∧ ∀ a ∈ done, a.name = m.name → mayShareName a m = true := by
  refine ⟨?_, ?_⟩
  · rintro ⟨hnamed, hapart⟩
    obtain ⟨hdone, -, hm⟩ := List.pairwise_append.mp hapart
    exact ⟨⟨fun a ha => hnamed a (List.mem_append_left _ ha), hdone⟩,
      hnamed m (List.mem_append_right _ List.mem_cons_self),
      fun a ha => hm a ha m List.mem_cons_self⟩
  · rintro ⟨⟨hnamed, hapart⟩, hm, hbeside⟩
    refine ⟨fun a ha => ?_, List.pairwise_append.mpr ⟨hapart, List.pairwise_singleton _ _, ?_⟩⟩
    · rcases List.mem_append.mp ha with ha | ha
      · exact hnamed a ha
      · rw [List.mem_singleton.mp ha]
        exact hm
    · intro a ha b hb
      rw [List.mem_singleton.mp hb]
      exact hbeside a ha

/-- The member that comes next is at the position that comes next. -/
theorem getElem?_split (hall : all = done ++ m :: rest) : all[done.length]? = some m := by
  rw [hall, List.getElem?_append_right (Nat.le_refl _), Nat.sub_self]
  rfl

/-- An index that was built is right, and the members could be declared. -/
theorem indexFrom_ok (hx : x.Indexed all done) (hall : all = done ++ rest) (hd : Declarable done)
    (h : indexFrom cls all rest done.length x = .ok y) : y.Indexed all all ∧ Declarable all := by
  -- On the members that are left; those entered so far stand in the index and are declarable.
  induction rest generalizing done x with
  | nil =>
    rw [List.append_nil] at hall
    subst hall
    cases h
    exact ⟨hx, hd⟩
  | cons m rest ih =>
    unfold indexFrom at h
    split at h
    · cases h
    · next hblank =>
      split at h
      · cases h
      · next hclash =>
        have hbeside := (clashes_iff hx).mp (Bool.eq_false_iff.mpr hclash)
        have hd' := declarable_snoc.mpr ⟨hd, Bool.eq_false_iff.mpr hblank, hbeside⟩
        refine ih (hx.add (getElem?_split hall)) (by rw [hall, List.append_assoc]; rfl) hd' ?_
        rw [List.length_append]
        exact h

/-- Members that can be declared get their index. -/
theorem indexFrom_of_declarable (hx : x.Indexed all done) (hall : all = done ++ rest)
    (hd : Declarable all) : ∃ y, indexFrom cls all rest done.length x = .ok y := by
  -- The members before this one are in the index, so they are what it is compared with.
  induction rest generalizing done x with
  | nil => exact ⟨x, rfl⟩
  | cons m rest ih =>
    have hall' : all = (done ++ [m]) ++ rest := by rw [hall, List.append_assoc]; rfl
    have hd' : Declarable (done ++ [m]) := by
      rw [hall'] at hd
      exact ⟨fun a ha => hd.named a (List.mem_append_left _ ha),
        (List.pairwise_append.mp hd.apart).1⟩
    obtain ⟨-, hblank, hbeside⟩ := declarable_snoc.mp hd'
    obtain ⟨y, hy⟩ := ih (hx.add (getElem?_split hall)) hall'
    refine ⟨y, ?_⟩
    unfold indexFrom
    rw [hblank, (clashes_iff hx).mpr hbeside, if_neg nofun, if_neg nofun]
    rwa [List.length_append] at hy

variable {ms : List Member} {ctor : Option Slots} {display : Option (List DisplayPart)}
  {c : HostClass}

/-- What is known of a class that was built. -/
theorem build_ok (h : build name ms ctor display = .ok c) :
    c.name = name ∧ c.holds = .slots ∧ c.members = ms ∧ c.constructor = ctor ∧
      c.display = display ∧ c.index.Indexed ms ms ∧ Text.isBlank name = false ∧ Declarable ms := by
  unfold build at h
  split at h
  · cases h
  -- A class was built, so the name was not blank and the members have been entered one after another.
  · next hblank =>
    cases hx : indexFrom name ms ms 0 .empty with
    | error e =>
      rw [hx] at h
      cases h
    | ok x =>
      rw [hx] at h
      cases h
      obtain ⟨hindexed, hd⟩ := indexFrom_ok (indexed_empty ms) rfl declarable_nil hx
      exact ⟨rfl, rfl, rfl, rfl, rfl, hindexed, Bool.eq_false_iff.mpr hblank, hd⟩

/-- Members that can be declared make a class. -/
theorem build_of_declarable (hname : Text.isBlank name = false) (hd : Declarable ms)
    (ctor : Option Slots) (display : Option (List DisplayPart)) :
    ∃ c, build name ms ctor display = .ok c := by
  obtain ⟨y, hy⟩ : ∃ y, indexFrom name ms ms 0 .empty = .ok y :=
    indexFrom_of_declarable (indexed_empty ms) rfl hd
  refine ⟨⟨name, .slots, ms, y, ctor, display⟩, ?_⟩
  unfold build
  rw [hname, if_neg nofun, hy]
  rfl

/-- **Members can be left out** of a class that was built. -/
theorem build_filter (h : build name ms ctor display = .ok c) (p : Member → Bool) :
    ∃ c', build name (ms.filter p) ctor display = .ok c' := by
  obtain ⟨-, -, -, -, -, -, hname, hd⟩ := build_ok h
  exact build_of_declarable hname (hd.filter p) ctor display

/-- **A lookup by name is a scan** of the declared members. -/
theorem membersNamed_of_build (h : build name ms ctor display = .ok c) (s : String) :
    c.membersNamed s = ms.filter fun m => m.name == s := by
  obtain ⟨-, -, hms, -, -, hindexed, -, -⟩ := build_ok h
  unfold membersNamed
  rw [hms]
  exact hindexed.named s

/-- **A lookup by number is a scan** for indexed properties. -/
theorem indexers_of_build (h : build name ms ctor display = .ok c) :
    c.indexers = ms.filter Member.isIndexer := by
  obtain ⟨-, -, hms, -, -, hindexed, -, -⟩ := build_ok h
  unfold indexers
  rw [hms]
  exact hindexed.indexed

/-- **Leaving members out commutes with resolution.** -/
theorem resolve_of_build {c' : HostClass} {p : Member → Bool}
    (h : build name ms ctor display = .ok c) (h' : build name (ms.filter p) ctor display = .ok c')
    (v : Visibility) (k : MemberKey) : v.resolve c' k = (v.resolve c k).filter p := by
  cases k with
  | name s =>
    simp only [Visibility.resolve, membersNamed_of_build h, membersNamed_of_build h',
      List.filter_filter]
    -- The filters are the same ones, in another order.
    congr 1
    funext m
    cases p m <;> simp
  | index i =>
    simp only [Visibility.resolve, indexers_of_build h, indexers_of_build h', List.filter_filter]
    congr 1
    funext m
    cases p m <;> simp

end HostClass

end ScriptHost
