import ScriptHost.Proofs.BuiltClass
import ScriptHost.World.Entity

/-!
# Indexed resolution is a scan

A binding resolves a key through the positions that stand beside the members of a class, and then
sorts out twice: what the binding shows and what the policy permits. For a class that was built this
is one scan of the declarations (`Binding.resolve_eq_scan`), so nothing the index does is visible in
the answer: no member is lost, none comes twice, and the order is the order of declaration.

The scan is stated with notions of its own, of what a key addresses (`MemberKey.addresses`) and of
what a configuration shows (`Config.shows`), and not with the flags that a binding keeps.
-/

set_option autoImplicit false

namespace ScriptHost

/-- Whether the key addresses the member: a name by its name, a number every indexed property. -/
def MemberKey.addresses : MemberKey → Member → Bool
  | .name s, m => m.name == s
  | .index _, m => m.isIndexer

/-- Whether a binding so configured shows the member of a class, or of one of its objects. -/
def Config.shows (cfg : Config) (onInstance : Bool) (m : Member) : Bool :=
  (!onInstance || cfg.exposeInstanceMembers) && m.isStatic == !onInstance &&
    (m.isPublic || cfg.includeNonPublic)

/-! ### The two filters -/

namespace Visibility

variable {name : String} {ms : List Member} {ctor : Option Slots}
  {display : Option (List DisplayPart)} {c : HostClass}

/-- Under flags, the answer of the index is a scan. -/
theorem resolve_eq_filter (h : HostClass.build name ms ctor display = .ok c) (v : Visibility)
    (k : MemberKey) :
    v.resolve c k = ms.filter fun m => v.admits m.isStatic m.isPublic && k.addresses m := by
  unfold Visibility.resolve
  cases k with
  | name s =>
    show (c.membersNamed s).filter _ = _
    rw [HostClass.membersNamed_of_build h, List.filter_filter]
    rfl
  | index x =>
    show c.indexers.filter _ = _
    rw [HostClass.indexers_of_build h, List.filter_filter]
    rfl

/-- The flags for a class admit static members. -/
theorem admits_ofType (wanted isStatic isPublic : Bool) :
    (ofType.withNonPublic wanted).admits isStatic isPublic = (isStatic && (isPublic || wanted)) := by
  cases isStatic <;> cases isPublic <;> cases wanted <;> rfl

/-- The flags for its objects admit the others. -/
theorem admits_ofInstance (wanted isStatic isPublic : Bool) :
    (ofInstance.withNonPublic wanted).admits isStatic isPublic =
      (!isStatic && (isPublic || wanted)) := by
  cases isStatic <;> cases isPublic <;> cases wanted <;> rfl

end Visibility

namespace Binding

variable {cfg : Config} {b : Binding}

/-- The flags of a binding, where it has some, admit what its configuration shows. -/
theorem admits_eq_shows {onInstance : Bool} {v : Visibility}
    (h : (ofConfig cfg).visibility onInstance = some v) (m : Member) :
    v.admits m.isStatic m.isPublic = cfg.shows onInstance m := by
  cases onInstance with
  | false =>
    obtain rfl : Visibility.ofType.withNonPublic cfg.includeNonPublic = v := Option.some.inj h
    rw [Visibility.admits_ofType]
    simp [Config.shows]
  | true =>
    have hexpose : cfg.exposeInstanceMembers = true := by
      by_cases hno : cfg.exposeInstanceMembers = true
      · exact hno
      · simp [visibility, ofConfig, hno] at h
    obtain rfl : Visibility.ofInstance.withNonPublic cfg.includeNonPublic = v := by
      simpa [visibility, ofConfig, hexpose] using h
    rw [Visibility.admits_ofInstance]
    simp [Config.shows, hexpose]

/-- A binding without flags for an access shows nothing there. -/
theorem shows_of_no_visibility {onInstance : Bool}
    (h : (ofConfig cfg).visibility onInstance = none) (m : Member) :
    cfg.shows onInstance m = false := by
  cases onInstance with
  | false => cases h
  | true =>
    have hexpose : cfg.exposeInstanceMembers = false := by
      by_cases hyes : cfg.exposeInstanceMembers = true
      · simp [visibility, ofConfig, hyes] at h
      · exact Bool.eq_false_iff.mpr hyes
    simp [Config.shows, hexpose]

/-- **Indexed resolution equals a scan.** For a class that was built, under every configuration and
policy and whatever the cache holds, a lookup gives the declared members, in their order and each as
often as it was declared, that the key addresses, that the configuration shows for this kind of
access, and that the policy permits. -/
theorem resolve_eq_scan {name : String} {ms : List Member} {ctor : Option Slots}
    {display : Option (List DisplayPart)} {c : HostClass}
    (h : HostClass.build name ms ctor display = .ok c) (cfg : Config) (p : Policy)
    (cache : ProxyCache) (k : MemberKey) (onInstance : Bool) :
    ({ ofConfig cfg with policy := p, cache := cache } : Binding).resolve c k onInstance =
      ms.filter fun m => k.addresses m && cfg.shows onInstance m && p.permits c m := by
  -- The flags are those of the configuration.
  have hflags : ({ ofConfig cfg with policy := p, cache := cache } : Binding).visibility onInstance =
      (ofConfig cfg).visibility onInstance := rfl
  unfold resolve
  rw [hflags]
  cases hv : (ofConfig cfg).visibility onInstance with
  | none =>
    symm
    rw [List.filter_eq_nil_iff]
    intro m _
    simp [shows_of_no_visibility hv m]
  | some v =>
    -- Both filters become one, over the declarations.
    show (v.resolve c k).filter _ = _
    rw [Visibility.resolve_eq_filter h, List.filter_filter]
    apply List.filter_congr
    intro m _
    rw [admits_eq_shows hv]
    ac_rfl

/-! ### A class with overloads of every kind -/

namespace Resolution

/-- An overload of one method. -/
def method (isStatic isPublic : Bool) (params : List HostType) : Member :=
  .method ⟨"Put", params, isStatic, isPublic, []⟩

/-- A property that is addressed by a number. -/
def indexer (name : String) (isStatic isPublic : Bool) : Member :=
  .property ⟨name, .any, isStatic, isPublic, 1, some (.slot name), none⟩

/-- Overloads of one name, static and not, public and not, between indexed properties. -/
def shelfMembers : List Member :=
  [method false true [], indexer "Row" false true, method true true [], method false false [.any],
    indexer "Column" true true, method false true [.any, .any], indexer "Secret" false true,
    method true false [.any]]

/-- Members named `Secret` and methods with one parameter are denied. -/
def picky : Policy :=
  .custom fun _ m => match m with
    | .method ⟨_, [_], _, _, _⟩ => .deny
    | m => if m.name == "Secret" then .deny else .permit

end Resolution

open Resolution in
/-- The shelf resolves its overloads and its rows. -/
theorem resolve_eq_scan_shelf :
    ∃ c, HostClass.build "Shelf" shelfMembers none none = .ok c ∧
      ({ ofConfig ⟨.shared, true, true, 200⟩ with policy := picky } : Binding).resolve c
        (.name "Put") true = [method false true [], method false true [.any, .any]] ∧
      ({ ofConfig ⟨.shared, true, false, 200⟩ with policy := picky } : Binding).resolve c
        (.index ⟨0⟩) true = [indexer "Row" false true] ∧
      ({ ofConfig ⟨.shared, true, true, 200⟩ with policy := .permitAll } : Binding).resolve c
        (.name "Put") false = [method true true [], method true false [.any]] ∧
      ({ ofConfig ⟨.shared, false, true, 200⟩ with policy := .permitAll } : Binding).resolve c
        (.name "Put") true = [] := by
  -- The index of the class that is built.
  have hbuild : HostClass.build "Shelf" shelfMembers none none =
      .ok ⟨"Shelf", .slots, shelfMembers,
        ⟨[("Put", [0, 2, 3, 5, 7]), ("Row", [1]), ("Column", [4]), ("Secret", [6])], [1, 4, 6]⟩,
        none, none⟩ := by
    rfl
  refine ⟨_, hbuild, ?_, ?_, ?_, ?_⟩
  · exact (resolve_eq_scan hbuild ⟨.shared, true, true, 200⟩ picky [] (.name "Put") true).trans rfl
  · exact (resolve_eq_scan hbuild ⟨.shared, true, false, 200⟩ picky [] (.index ⟨0⟩) true).trans rfl
  · exact (resolve_eq_scan hbuild ⟨.shared, true, true, 200⟩ .permitAll [] (.name "Put")
      false).trans rfl
  · exact (resolve_eq_scan hbuild ⟨.shared, false, true, 200⟩ .permitAll [] (.name "Put")
      true).trans rfl

end Binding

end ScriptHost
