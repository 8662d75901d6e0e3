import ScriptHost.Proofs.Conversion.Faithful
import ScriptHost.Proofs.Conversion.Represents
import ScriptHost.Proofs.Number.ExactValue

/-!
# What conversions settle on

What a conversion to a type gives is not just any inhabitant of the type: an array has no null in it
and is not too long, a wide unsigned integer is a float exactly, and where the type passes everything
through, it is what script values naturally stand for. `HostValue.Settled P t x` says so, where
`P` is what is known of the objects and of the values that pass through. Null apart, conversions give
settled values (`convertWith_settled`, `convertWith_passing`).

A settled value is read back as it is from whatever stands for it, if its objects and the values that
pass through are (`convertWith_settled_back`).
-/

set_option autoImplicit false

namespace ScriptHost

/-! ### Types without void -/

/-- Void occurs neither in the type nor inside its arrays and nullable types. -/
def HostType.VoidFree : HostType → Prop
  | .void => False
  | .array t | .nullable t => t.VoidFree
  | _ => True

/-- The types that pass values through: the elements can be anything. -/
inductive HostType.Passing : HostType → Prop where
  | any : Passing .any
  | array {t : HostType} (h : Passing t) : Passing (.array t)
  | nullable {t : HostType} (h : Passing t) : Passing (.nullable t)

/-- The types whose elements are of one kind. -/
inductive HostType.Definite : HostType → Prop where
  | bool : Definite .bool
  | integer (t : IntType) : Definite (.integer t)
  | single : Definite .single
  | double : Definite .double
  | string : Definite .string
  | object (c : ClassRef) : Definite (.object c)
  | table : Definite .table
  | function : Definite .function
  | array {t : HostType} (h : Definite t) : Definite (.array t)
  | nullable {t : HostType} (h : Definite t) : Definite (.nullable t)

/-- A type without void passes values through, or its elements are of one kind. -/
theorem HostType.VoidFree.passing_or_definite {t : HostType} (ht : t.VoidFree) :
    t.Passing ∨ t.Definite := by
  -- An array and a nullable type are as the type inside is.
  induction t with
  | void => cases ht
  | any => exact .inl .any
  | array t ih => exact (ih ht).imp .array .array
  | nullable t ih => exact (ih ht).imp .nullable .nullable
  | bool => exact .inr .bool
  | integer t => exact .inr (.integer t)
  | single => exact .inr .single
  | double => exact .inr .double
  | string => exact .inr .string
  | object c => exact .inr (.object c)
  | table => exact .inr .table
  | function => exact .inr .function

/-! ### Leaves -/

namespace HostValue

mutual

/-- The values that occur in the value and are no arrays. -/
def leaves : HostValue → List HostValue
  | .array items => leavesIn items
  | x => [x]

/-- The values that occur in the values and are no arrays. -/
def leavesIn : List HostValue → List HostValue
  | [] => []
  | x :: xs => leaves x ++ leavesIn xs

end

/-- The leaves of a list are those of its members. -/
theorem mem_leavesIn {y : HostValue} {xs : List HostValue} :
    y ∈ leavesIn xs ↔ ∃ x ∈ xs, y ∈ x.leaves := by
  induction xs with
  | nil => simp [leavesIn]
  | cons x xs ih =>
    rw [leavesIn, List.mem_append, ih]
    simp

mutual

/-- A value holds what its leaves hold. -/
theorem mem_held_iff {k : Handle} : ∀ x : HostValue, k ∈ held x ↔ ∃ y ∈ x.leaves, k ∈ held y
  | .array items => by
    rw [held, leaves]
    exact mem_heldAll_iff items
  | .null | .bool _ | .int _ | .uint _ | .float _ | .string _ | .object _ | .cls _ | .script _ => by
    simp [leaves]

/-- The same for a list. -/
theorem mem_heldAll_iff {k : Handle} : ∀ xs : List HostValue,
    k ∈ heldAll xs ↔ ∃ y ∈ leavesIn xs, k ∈ held y
  | [] => by simp [heldAll, leavesIn]
  | x :: xs => by
    rw [heldAll, leavesIn, List.mem_append, mem_held_iff x, mem_heldAll_iff xs]
    simp [or_and_right, exists_or]

end

end HostValue

mutual

/-- The objects that a leaf names are known with the value. -/
theorem Known.of_mem_leaves {K : Set Mention} {y : HostValue} : ∀ x : HostValue, Known K x →
    y ∈ x.leaves → Known K y
  | .array items, hx, hy => Known.of_mem_leavesIn items (Known.array_iff.mp hx) hy
  | .null, hx, hy | .bool _, hx, hy | .int _, hx, hy | .uint _, hx, hy | .float _, hx, hy
  | .string _, hx, hy | .object _, hx, hy | .cls _, hx, hy | .script _, hx, hy =>
    List.mem_singleton.mp hy ▸ hx

/-- The same for the leaves of a list. -/
theorem Known.of_mem_leavesIn {K : Set Mention} {y : HostValue} : ∀ xs : List HostValue,
    Known K xs → y ∈ HostValue.leavesIn xs → Known K y
  | [], _, hy => nomatch hy
  | x :: xs, hxs, hy => (List.mem_append.mp hy).elim (Known.of_mem_leaves x hxs.head)
      (Known.of_mem_leavesIn xs hxs.tail)

end

/-! ### Settled values -/

namespace HostValue

/-- **What a conversion to a type gives, other than null.** -/
inductive Settled (P : HostValue → Prop) : HostType → HostValue → Prop where
  | bool (b : Bool) : Settled P .bool (.bool b)
  /-- In script, what is too wide for an integer is a float. -/
  | integer {t : IntType} {n : Int} (hrange : t.min ≤ n ∧ n ≤ t.max)
      (hexact : 2 ^ 63 ≤ n → (Binary64.ofInt n).toInt? = some n) : Settled P (.integer t) (t.value n)
  | single {x : Binary64} (h : x.fitsSingle = true) : Settled P .single (.float x)
  | double (x : Binary64) : Settled P .double (.float x)
  | string (s : String) : Settled P .string (.string s)
  | array {items : List HostValue} {t : HostType} (h : ∀ x ∈ items, Settled P t x)
      (hlength : items.length < 2 ^ 63) : Settled P (.array t) (.array items)
  | object {o : ObjectRef} {c : ClassRef} (hc : o.cls.same c = true) (h : P (.object o)) :
      Settled P (.object c) (.object o)
  | table (t : TableRef) : Settled P .table (.script (.table t))
  | function (f : FunctionRef) : Settled P .function (.script (.function f))
  | nullable {x : HostValue} {t : HostType} (h : Settled P t x) : Settled P (.nullable t) x
  | any {x : HostValue} (hleaf : x.leaves = [x]) (h : P x) : Settled P .any x

/-- What matters of a settled value are its leaves. -/
theorem Settled.mono {P P' : HostValue → Prop} {t : HostType} {x : HostValue} (h : Settled P t x)
    (hP : ∀ y ∈ x.leaves, P y → P' y) : Settled P' t x := by
  induction h with
  | bool b => exact .bool b
  | integer hrange hexact => exact .integer hrange hexact
  | single h => exact .single h
  | double x => exact .double x
  | string s => exact .string s
  -- An item's leaves are leaves of the array.
  | @array items t _ hlength ih =>
    refine .array (fun x hx => ih x hx fun y hy => hP y ?_) hlength
    rw [leaves]
    exact mem_leavesIn.mpr ⟨x, hx, hy⟩
  | object hc h => exact .object hc (hP _ (List.mem_singleton_self _) h)
  | table t => exact .table t
  | function f => exact .function f
  | nullable _ ih => exact .nullable (ih hP)
  | any hleaf h => exact .any hleaf (hP _ (hleaf ▸ List.mem_singleton_self _) h)

/-- Where everything passes through, it is known of all leaves. -/
theorem Settled.of_mem_leaves {P : HostValue → Prop} {t : HostType} (ht : t.Passing) {x : HostValue}
    (h : Settled P t x) : ∀ y ∈ x.leaves, P y := by
  induction ht generalizing x with
  -- In the end all leaves come from values that passed through.
  | any =>
    cases h with
    | any hleaf h =>
      rw [hleaf]
      exact List.forall_mem_singleton.mpr h
  | array _ ih =>
    cases h with
    | array h _ =>
      intro y hy
      rw [leaves] at hy
      obtain ⟨x, hx, hy⟩ := mem_leavesIn.mp hy
      exact ih (h x hx) y hy
  | nullable _ ih =>
    cases h with
    | nullable h => exact ih h

end HostValue

/-! ### What conversions give -/

namespace IntType

variable {P : HostValue → Prop} {t : IntType} {n : Int} {x : HostValue}

/-- No integer type goes beyond a word. -/
theorem lt_of_le_max (h : n ≤ t.max) : n < 2 ^ 64 := by
  have hbits : (if t.signed then t.width.bits - 1 else t.width.bits) ≤ 64 := by
    have hle := t.width.bits_le
    split
    · omega
    · exact hle
  have hbound : ((t.bound : Nat) : Int) ≤ 2 ^ 64 := by
    rw [bound, Nat.one_shiftLeft]
    exact_mod_cast Nat.pow_le_pow_right Nat.two_pos hbits
  rw [max] at h
  omega

/-- An integer of script that fits is not too wide to be one again. -/
theorem settled_of_fit_toInt {i : Int64} (h : t.fit i.toInt = .ok x) : x.Settled P (.integer t) := by
  obtain ⟨hrange, rfl⟩ := fit_eq_ok h
  have hmax := i.toInt_lt
  exact .integer hrange fun hwide => absurd hwide (by omega)

/-- A float that fits is the float of its integer again, if that is wide. -/
theorem settled_of_fitFloat {f : Binary64} (h : t.fitFloat f = .ok x) :
    x.Settled P (.integer t) := by
  obtain ⟨n, hn, -, hfit⟩ := fitFloat_eq_ok h
  obtain ⟨hrange, rfl⟩ := fit_eq_ok hfit
  refine .integer hrange fun hwide => ?_
  have hmax := lt_of_le_max hrange.2
  exact Binary64.toInt?_ofInt (log2_natAbs_lt (by omega)) hn

end IntType

namespace World

/-- What some value of the world that is alive naturally stands for. -/
def Natural (w : World) (x : HostValue) : Prop :=
  ∃ s : ScriptValue, s.isNil = false ∧ ScriptHost.Known (w.known true) s ∧
    (∀ k ∈ handles s, w.alive k = true) ∧ w.naturalValue s = x

/-- A natural value is no array, so it is its only leaf. -/
theorem leaves_naturalValue (w : World) (s : ScriptValue) :
    (w.naturalValue s).leaves = [w.naturalValue s] := by
  cases s with
  | userdata u =>
    simp only [naturalValue]
    split <;> rfl
  | _ => rfl

/-- The elements of a table that is alive are alive. -/
theorem alive_of_mem_sequence {w : World} {t : TableRef} (ht : w.alive t.handle = true)
    {v : ScriptValue} (hv : v ∈ (w.table t).sequence) : ∀ k ∈ handles v, w.alive k = true := by
  intro k hk
  have hheld : k ∈ handles (w.table t) := Table.handles_of_mem_sequence hv hk
  rw [table] at hheld
  cases hentries : w.tables.get? t with
  | none =>
    -- A table that is not there reads as the empty one.
    rw [hentries] at hheld
    cases hheld
  | some entries =>
    rw [hentries, Option.getD_some] at hheld
    refine alive_of_keeps ht (keeps_iff.mpr ?_)
    change k ∈ handles (w.tables.get? t)
    rw [hentries]
    exact mem_handles_some.mpr hheld

end World

namespace Act

variable {via : BindingRef} {n : Nat} {t : HostType} {v : ScriptValue} {x : HostValue} {w w' : World}

/-- **Elements are converted one by one**: what each conversion preserves, all of them preserve. -/
theorem convertItems_induction {I : World → Prop} {R : HostValue → Prop}
    {convert : ScriptValue → Act ConversionError HostValue} {target element : HostType}
    {vs : List ScriptValue}
    (hconvert : ∀ v ∈ vs, ∀ {w w' x}, I w → (convert v).outcome w = (.ok x, w') → I w' ∧ R x)
    {i : Nat} {xs : List HostValue} (hw : I w)
    (h : (convertItems convert target element vs i).outcome w = (.ok xs, w')) :
    I w' ∧ xs.length = vs.length ∧ ∀ x ∈ xs, R x := by
  induction vs generalizing i xs w with
  | nil =>
    cases h
    exact ⟨hw, rfl, List.forall_mem_nil _⟩
  | cons v vs ih =>
    unfold convertItems at h
    obtain ⟨x, w₁, hitem, h⟩ := outcome_bind_eq_ok h
    obtain ⟨rest, w₂, hrest, h⟩ := outcome_bind_eq_ok h
    cases h
    -- What holds before an item holds after it, so that the next one can be converted.
    obtain ⟨hw₁, hx⟩ := hconvert v List.mem_cons_self hw (outcome_mapError_eq_ok hitem)
    obtain ⟨hw₂, hlength, hxs⟩ := ih (fun v hv => hconvert v (List.mem_cons_of_mem _ hv)) hw₁ hrest
    exact ⟨hw₂, by rw [List.length_cons, hlength, List.length_cons],
      List.forall_mem_cons.mpr ⟨hx, hxs⟩⟩

/-- **Where everything passes through, nothing happens**: values become what they naturally stand
for. -/
theorem convertWith_passing {build : Builder} (hw : w.Faithful) (ht : t.Passing)
    (hv : v.isNil = false) (hknown : Known (w.known true) v)
    (halive : ∀ k ∈ handles v, w.alive k = true)
    (h : (convertWith build t v).outcome w = (.ok x, w')) : w' = w ∧ x.Settled w.Natural t := by
  induction ht generalizing v x w' with
  | any =>
    cases v with
    | nil => cases hv
    | _ =>
      unfold convertWith at h
      cases h
      exact ⟨rfl, .any (w.leaves_naturalValue _) ⟨_, hv, hknown, halive, rfl⟩⟩
  | @nullable inner _ ih =>
    cases v with
    | nil => cases hv
    | _ =>
      unfold convertWith at h
      obtain ⟨hw', hx⟩ := ih hv hknown halive h
      exact ⟨hw', .nullable hx⟩
  | @array element _ ih =>
    cases v with
    | table r =>
      unfold convertWith at h
      obtain ⟨vs, w₁, hlook, h⟩ := outcome_bind_eq_ok h
      cases hlook
      obtain ⟨items, w₂, hitems, h⟩ := outcome_bind_eq_ok h
      cases h
      -- The elements are converted in the world as it is, one after another.
      have hr : w.alive r.handle = true := halive _ (List.mem_singleton_self _)
      have hvs := Table.known_sequence (hw.known.table r)
      have hall := convertItems_induction (I := fun w₁ => w₁ = w)
        (R := fun y => y.Settled w.Natural element) (fun v hv w₁ w₂ y hw₁ hy => by
          subst hw₁
          exact ih ((hw.noNil.table r).of_mem_sequence hv) (Known.list_iff.mp hvs v hv)
            (World.alive_of_mem_sequence hr hv) hy) rfl hitems
      obtain ⟨hw', hlength, hsettled⟩ := hall
      exact ⟨hw', .array hsettled (hlength ▸ Table.length_sequence_lt _)⟩
    | nil => cases hv
    | _ => unfold convertWith at h; cases h

/-- A table becomes a fresh object, never null. -/
theorem buildUpTo_object {c : ClassRef} {r : TableRef}
    (h : (buildUpTo via n c r).outcome w = (.ok x, w')) :
    ∃ o, x = .object o ∧ o.cls.same c = true := by
  -- The class is right because what is built inhabits the type.
  have hcomposed : Composed .all false ∅ (buildUpTo via n c r) (HostType.object c).Gives :=
    buildUpTo_composed (.inl rfl) via n c r
  obtain ⟨-, -, htyped, -⟩ := hcomposed.gives w.within_all h
  cases n with
  | zero => cases h
  | succ n =>
    unfold buildUpTo buildObject at h
    obtain ⟨o, w₁, -, h⟩ := outcome_bind_eq_ok h
    obtain ⟨entries, w₂, -, h⟩ := outcome_bind_eq_ok h
    split at h
    · cases h
    · obtain ⟨-, w₃, -, h⟩ := outcome_bind_eq_ok h
      cases h
      cases htyped with
      | object hsame => exact ⟨o, rfl, hsame⟩

/-- A value other than nil becomes an object of the class, never null. -/
theorem convertObject_object {c : ClassRef}
    (h : (convertObject (buildUpTo via n) c v).outcome w = (.ok x, w')) :
    ∃ o, x = .object o ∧ o.cls.same c = true := by
  unfold convertObject at h
  cases v with
  | userdata u =>
    obtain ⟨t?, w₁, -, h⟩ := outcome_bind_eq_ok h
    split at h
    · next o =>
      split at h
      -- The object of a proxy is of the class that is asked for, or it is refused.
      · next hsame =>
        cases h
        exact ⟨o, rfl, hsame⟩
      · cases h
    · cases h
  | table r => exact buildUpTo_object h
  | _ => cases h

/-- Conversions store nil in no table. -/
theorem convertWith_noNil (hw : w.NoNil)
    (h : (convertWith (buildUpTo via n) t v).outcome w = (.ok x, w')) : w'.NoNil := by
  have hcomposed : Composed .all false Set.univ (convertWith (buildUpTo via n) t v) t.Gives :=
    convertWith_composed (buildUpTo_composed (.inl rfl) via n) t (.univ v)
  have hnoNil := (hcomposed.effects w.within_all).1.noNil hw
  rwa [h] at hnoNil

/-- **What a conversion to a definite type gives is settled**, null apart. -/
theorem convertWith_settled (hw : w.NoNil) (ht : t.Definite) (hv : v.isNil = false)
    (h : (convertWith (buildUpTo via n) t v).outcome w = (.ok x, w')) :
    x.Settled (fun y => y.isObject = true) t := by
  induction ht generalizing v x w w' with
  | @nullable inner _ ih =>
    cases v with
    | nil => cases hv
    | _ => unfold convertWith at h; exact .nullable (ih hw hv h)
  | @array element _ ih =>
    cases v with
    | table r =>
      unfold convertWith at h
      obtain ⟨vs, w₁, hlook, h⟩ := outcome_bind_eq_ok h
      cases hlook
      obtain ⟨items, w₂, hitems, h⟩ := outcome_bind_eq_ok h
      cases h
      -- No element is nil, however the ones before it were converted.
      have hall := convertItems_induction (I := World.NoNil)
        (R := fun y => y.Settled (fun y => y.isObject = true) element)
        (fun v hv _ _ _ hw₁ hy => ⟨convertWith_noNil hw₁ hy,
          ih hw₁ ((hw.table r).of_mem_sequence hv) hy⟩) hw hitems
      obtain ⟨-, hlength, hsettled⟩ := hall
      exact .array hsettled (hlength ▸ Table.length_sequence_lt _)
    | nil => cases hv
    | _ => unfold convertWith at h; cases h
  | object c =>
    have hobject : (convertObject (buildUpTo via n) c v).outcome w = (.ok x, w') := by
      cases v with
      | nil => cases hv
      | _ => unfold convertWith at h; exact h
    obtain ⟨o, rfl, hsame⟩ := convertObject_object hobject
    exact .object hsame rfl
  | integer t =>
    cases v with
    | nil => cases hv
    | integer i =>
      unfold convertWith at h
      rw [outcome_ofExcept] at h
      exact IntType.settled_of_fit_toInt (congrArg Prod.fst h)
    | number f =>
      unfold convertWith at h
      rw [outcome_ofExcept] at h
      exact IntType.settled_of_fitFloat (congrArg Prod.fst h)
    | _ => unfold convertWith at h; cases h
  | single =>
    cases v with
    | nil => cases hv
    | _ =>
      unfold convertWith at h
      split at h
      · split at h
        · next hfits =>
          cases h
          exact .single hfits
        · cases h
      · cases h
  | double =>
    cases v with
    | nil => cases hv
    | _ =>
      unfold convertWith at h
      split at h
      · cases h
        exact .double _
      · cases h
  | bool =>
    cases v with
    | nil => cases hv
    | boolean b => unfold convertWith at h; cases h; exact .bool b
    | _ => unfold convertWith at h; cases h
  | string =>
    cases v with
    | nil => cases hv
    | string s => unfold convertWith at h; cases h; exact .string s
    | _ => unfold convertWith at h; cases h
  | table =>
    cases v with
    | nil => cases hv
    | table r => unfold convertWith at h; cases h; exact .table r
    | _ => unfold convertWith at h; cases h
  | function =>
    cases v with
    | nil => cases hv
    | function f => unfold convertWith at h; cases h; exact .function f
    | _ => unfold convertWith at h; cases h

end Act

end ScriptHost
