import ScriptHost.Proofs.Conversion.HasType
import ScriptHost.Proofs.Conversion.Represents
import ScriptHost.Proofs.Conversion.Sequence

/-!
# Arrays into script and back

A null in an array becomes nil in script, and a table does not store nil: its position stays empty.
The way back reads a table up to the first empty position. So an array that was in script comes back
cut at its first null, and so does every array inside it; nothing else gets lost.

`HostValue.cut` is the value with all its arrays cut, `convertWith_represents` reads it back for one
value of any type that is put together from booleans, signed integers, floats, strings, nullable
types and arrays (`HostType.Plain`), and `roundTrip_array` takes an array there and back.
-/

set_option autoImplicit false

namespace ScriptHost

/-- The types that are put together from booleans, signed integers, floats and strings. -/
inductive HostType.Plain : HostType → Prop where
  | bool : Plain .bool
  | signed (width : Width) : Plain (.integer ⟨true, width⟩)
  | double : Plain .double
  | string : Plain .string
  | nullable {t : HostType} (h : Plain t) : Plain (.nullable t)
  | array {t : HostType} (h : Plain t) : Plain (.array t)

namespace HostValue

/-! ### Arrays that are cut -/

mutual

/-- The value with every array in it cut at its first null. -/
def cut : HostValue → HostValue
  | .array items => .array (cutAll items)
  | x => x

/-- The elements before the first null, each of them cut. -/
def cutAll : List HostValue → List HostValue
  | [] => []
  | x :: xs => if x.isNull then [] else cut x :: cutAll xs

end

/-- What is left is what comes before the first null, with each item cut in turn. -/
theorem cutAll_eq (xs : List HostValue) : cutAll xs = (xs.takeWhile fun x => !x.isNull).map cut := by
  induction xs with
  | nil => rfl
  | cons x xs ih =>
    rw [cutAll, List.takeWhile_cons, ih]
    cases x.isNull with
    | true => rfl
    | false => rfl

mutual

/-- Every array in the value satisfies the condition. -/
def EachArray (P : List HostValue → Prop) : HostValue → Prop
  | .array items => P items ∧ EachArrayIn P items
  | _ => True

/-- Every array in one of the values satisfies the condition. -/
def EachArrayIn (P : List HostValue → Prop) : List HostValue → Prop
  | [] => True
  | x :: xs => EachArray P x ∧ EachArrayIn P xs

end

/-- What is asked of every array in a list is asked of each item. -/
theorem EachArrayIn.of_mem {P : List HostValue → Prop} {xs : List HostValue}
    (h : EachArrayIn P xs) {x : HostValue} (hx : x ∈ xs) : x.EachArray P := by
  induction xs with
  | nil => cases hx
  | cons y ys ih =>
    rcases List.mem_cons.mp hx with rfl | hx
    · exact h.1
    · exact ih h.2 hx

/-- No array in the value has null among its elements. -/
def NullFree (x : HostValue) : Prop := x.EachArray fun items => ∀ y ∈ items, y.isNull = false

/-- The arrays in the value are as short as arrays in memory: they have fewer than `2 ^ 63`
elements. -/
def Addressable (x : HostValue) : Prop := x.EachArray fun items => items.length < 2 ^ 63

mutual

/-- **A value is cut to itself exactly when no array in it has a null.** -/
theorem cut_eq_self_iff : ∀ x : HostValue, x.cut = x ↔ x.NullFree
  | .array items => by
    unfold cut NullFree EachArray
    rw [HostValue.array.injEq]
    exact cutAll_eq_self_iff items
  | .null | .bool _ | .int _ | .uint _ | .float _ | .string _ | .object _ | .cls _ | .script _ => by
    simp [cut, NullFree, EachArray]

theorem cutAll_eq_self_iff : ∀ xs : List HostValue, cutAll xs = xs ↔
    (∀ y ∈ xs, y.isNull = false) ∧ EachArrayIn (fun items => ∀ y ∈ items, y.isNull = false) xs
  | [] => by simp [cutAll, EachArrayIn]
  | x :: xs => by
    have hx := cut_eq_self_iff x
    have hxs := cutAll_eq_self_iff xs
    unfold NullFree at hx
    unfold cutAll EachArrayIn
    rw [List.forall_mem_cons]
    -- A null is lost, with everything behind it.
    cases hnull : x.isNull with
    | true => simp
    | false =>
      simp only [Bool.false_eq_true, if_false, List.cons.injEq, hx, hxs, true_and]
      exact and_left_comm

end

end HostValue

/-! ### Reading back -/

namespace Act

variable {w : World} {build : Builder}

/-- Only null is nil in script, among the values of plain types. -/
theorem isNil_eq_isNull {t : HostType} (ht : t.Plain) {x : HostValue} (hx : x.HasType t)
    {s : ScriptValue} (hs : w.Represents x s) : s.isNil = x.isNull := by
  induction ht with
  | nullable _ ih =>
    cases hx with
    | null _ => cases hs; rfl
    | nullable hx => exact ih hx
  | bool | signed | double | string | array =>
    cases hx <;> cases hs <;> rfl

/-- What fits a signed type comes back as it is. -/
theorem fit_toInt {width : Width} {i : Int64} (hmin : -2 ^ (width.bits - 1) ≤ i.toInt)
    (hmax : i.toInt < 2 ^ (width.bits - 1)) :
    IntType.fit ⟨true, width⟩ i.toInt = .ok (.int i) := by
  rw [IntType.fit_of_range (IntType.mem_range_signed.mpr ⟨hmin, hmax⟩)]
  simp [IntType.value]

/-- What stands for elements up to the first null is what stands for them up to the first nil. -/
theorem forall₂_takeWhile {items : List HostValue} {vs : List ScriptValue}
    (h : List.Forall₂ w.Represents items vs)
    (hnil : ∀ x ∈ items, ∀ s, w.Represents x s → s.isNil = x.isNull) :
    List.Forall₂ w.Represents (items.takeWhile fun x => !x.isNull)
      (vs.takeWhile fun v => !v.isNil) := by
  induction h with
  | nil => exact .nil
  | @cons x s xs vs hs _ ih =>
    have hrest := ih fun y hy => hnil y (List.mem_cons_of_mem x hy)
    rw [List.takeWhile_cons, List.takeWhile_cons, hnil x List.mem_cons_self s hs]
    cases x.isNull with
    | true => exact .nil
    | false => exact .cons hs hrest

/-- nil is read back as null, whatever the type. -/
theorem convertWith_represents_nil {t : HostType} (ht : t.Plain) {x : HostValue} (hx : x.HasType t)
    (hs : w.Represents x .nil) : (convertWith build t .nil).outcome w = (.ok x.cut, w) := by
  have hnull := isNil_eq_isNull ht hx hs
  cases x with
  | null =>
    have hadmits : t.admitsNull = true := by
      cases ht with
      | nullable | array | string => rfl
      | _ => cases hx; assumption
    rw [convertWith_nil hadmits]
    rfl
  | _ => cases hnull

/-- **What stands for a value of a plain type is read back as that value, cut.** -/
theorem convertWith_represents {t : HostType} (ht : t.Plain) {x : HostValue} (hx : x.HasType t)
    (hlen : x.Addressable) {s : ScriptValue} (hs : w.Represents x s) :
    (convertWith build t s).outcome w = (.ok x.cut, w) := by
  -- For every type nil comes first.
  cases hnil : s.isNil with
  | true =>
    obtain rfl : s = .nil := by cases s <;> first | rfl | cases hnil
    exact convertWith_represents_nil ht hx hs
  | false =>
    induction ht generalizing x s with
    | @nullable inner hplain ih =>
      have hinner : x.HasType inner := by
        cases hx with
        | null _ => cases hs; cases hnil
        | nullable hx => exact hx
      have hrun := ih hinner hlen hs hnil
      cases s with
      | nil => cases hnil
      | _ => unfold convertWith; exact hrun
    | @array element hplain ih =>
      cases hx with
      | null _ => cases hs; cases hnil
      | @array items _ hitems =>
        cases hs with
        | @array _ t vs htable hvs =>
          obtain ⟨hshort, hinside⟩ := hlen
          have hsequence : (w.table t).sequence = vs.takeWhile fun v => !v.isNil := by
            rw [World.table, htable, Option.getD_some]
            exact Table.sequence_ofSequence (hvs.length_eq ▸ hshort)
          have hnil : ∀ y ∈ items, ∀ v, w.Represents y v → v.isNil = y.isNull := fun y hy v hv =>
            isNil_eq_isNull hplain (hitems y hy) hv
          -- Before the first null each element is converted.
          have hrun : (convertItems (convertWith build element) (.array element) element
              (vs.takeWhile fun v => !v.isNil) 1).outcome w = (.ok (HostValue.cutAll items), w) := by
            rw [HostValue.cutAll_eq]
            refine convertItems_represents (forall₂_takeWhile hvs hnil) (fun y hy v hv => ?_) 1
            have hmem : y ∈ items := (List.takeWhile_prefix _).subset hy
            have hnull : y.isNull = false := by simpa using List.mem_takeWhile_imp hy
            exact ih (hitems y hmem) (hinside.of_mem hmem) hv ((hnil y hmem v hv).trans hnull)
          unfold convertWith
          rw [outcome_bind_ok (outcome_look _ w), hsequence, outcome_bind_ok hrun]
          rfl
    | bool =>
      cases hx with
      | null h => cases h
      | bool b => cases hs; rfl
    | signed width =>
      cases hx with
      | null h => cases h
      | signed hmin hmax =>
        cases hs
        unfold convertWith
        rw [outcome_ofExcept, fit_toInt hmin hmax]
        rfl
    | double =>
      cases hx with
      | null h => cases h
      | double x => cases hs; rfl
    | string =>
      cases hx with
      | null _ => cases hs; cases hnil
      | string s => cases hs; rfl

/-- **Plain values come back cut.** -/
theorem roundTrip_plain (via : BindingRef) {t : HostType} (ht : t.Plain) {x : HostValue}
    (hx : x.HasType t) (hlen : x.Addressable) (w : World) :
    ((roundTrip via t x).outcome w).1 = .ok x.cut := by
  obtain ⟨s, w₁, hs, hback⟩ := roundTrip_eq via t x w
  have hrepr : ({ w₁ with held := handles s ++ w₁.held } : World).Represents x s :=
    (toScript_represents x hs).of_eq rfl rfl
  rw [hback]
  unfold toHost
  rw [outcome_bind_ok (outcome_look _ _), convertWith_represents ht hx hlen hrepr]

end Act

/-! ### Arrays there and back -/

open Act

/-- **Arrays cross up to their first nulls.** An array whose elements inhabit a plain type comes back
from script at its array type, whatever nulls it has: it and every array inside it are cut at the
first null, and it comes back as it was exactly when there is no null in any of them. -/
theorem roundTrip_array (via : BindingRef) {element : HostType} (he : element.Plain)
    {xs : List HostValue} (hxs : ∀ x ∈ xs, x.HasType element)
    (hlen : (HostValue.array xs).Addressable) (w : World) :
    ((roundTrip via (.array element) (.array xs)).outcome w).1 = .ok (HostValue.array xs).cut ∧
      (((roundTrip via (.array element) (.array xs)).outcome w).1 = .ok (.array xs) ↔
        (HostValue.array xs).NullFree) := by
  have hcut := roundTrip_plain via (.array he) (.array hxs) hlen w
  refine ⟨hcut, ?_⟩
  rw [hcut, Except.ok.injEq]
  exact HostValue.cut_eq_self_iff _

/-- Two arrays and a null: the first array loses what comes after its null, and the second array is
behind a null itself. -/
def gaps : List HostValue :=
  [.array [.int 1, .null, .int 2], .null, .array [.int 3]]

/-- The theorem at `gaps`, in a new session. -/
theorem roundTrip_array_gaps :
    HostType.Plain (.array (.nullable (.integer ⟨true, .w64⟩))) ∧
      (∀ x ∈ gaps, x.HasType (.array (.nullable (.integer ⟨true, .w64⟩)))) ∧
      (HostValue.array gaps).Addressable ∧
      ((roundTrip ⟨0⟩ (.array (.array (.nullable (.integer ⟨true, .w64⟩)))) (.array gaps)).outcome
        (World.start .default fun _ => 0)).1 = .ok (.array [.array [.int 1]]) := by
  have hplain : HostType.Plain (.array (.nullable (.integer ⟨true, .w64⟩))) :=
    .array (.nullable (.signed .w64))
  have hint (i : Int64) (hmin : -2 ^ 63 ≤ i.toInt) (hmax : i.toInt < 2 ^ 63) :
      (HostValue.int i).HasType (.nullable (.integer ⟨true, .w64⟩)) :=
    .nullable (.signed hmin hmax)
  have htyped : ∀ x ∈ gaps, x.HasType (.array (.nullable (.integer ⟨true, .w64⟩))) := by
    simp only [gaps, List.forall_mem_cons]
    refine ⟨.array ?_, .null rfl, .array ?_, List.forall_mem_nil _⟩
    · simp only [List.forall_mem_cons]
      exact ⟨hint 1 (by decide) (by decide), .null rfl, hint 2 (by decide) (by decide),
        List.forall_mem_nil _⟩
    · simp only [List.forall_mem_cons]
      exact ⟨hint 3 (by decide) (by decide), List.forall_mem_nil _⟩
  have hlen : (HostValue.array gaps).Addressable := by
    simp [HostValue.Addressable, HostValue.EachArray, HostValue.EachArrayIn, gaps]
  exact ⟨hplain, htyped, hlen, (roundTrip_array ⟨0⟩ hplain htyped hlen _).1⟩

/-- An array that begins with null comes back empty: not every array comes back as it was. -/
theorem array_lost_at_null :
    ¬ ∀ (via : BindingRef) (element : HostType) (xs : List HostValue) (w : World), element.Plain →
      (∀ x ∈ xs, x.HasType element) → (HostValue.array xs).Addressable →
        ((roundTrip via (.array element) (.array xs)).outcome w).1 = .ok (.array xs) := by
  intro hclaim
  -- The null is the first item, so nothing is left.
  have hlost : ((((roundTrip ⟨0⟩ (.array (.nullable (.integer ⟨true, .w64⟩)))
      (.array [.null, .int 1])).outcome (World.start .default fun _ => 0)).1.toOption).bind
        HostValue.arrayLength?) = some 0 := by
    decide +kernel
  have hback := hclaim ⟨0⟩ (.nullable (.integer ⟨true, .w64⟩)) [.null, .int 1]
    (World.start .default fun _ => 0) (.nullable (.signed .w64)) ?_ ?_
  · rw [hback] at hlost
    cases hlost
  · simp only [List.forall_mem_cons]
    exact ⟨.null rfl, .nullable (.signed (by decide) (by decide)), List.forall_mem_nil _⟩
  · simp [HostValue.Addressable, HostValue.EachArray, HostValue.EachArrayIn]

end ScriptHost
