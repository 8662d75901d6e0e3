import Mathlib.Algebra.Order.Ring.Int
import Mathlib.Data.List.Forall2
import ScriptHost.World.Basic
import ScriptHost.Convert.Integer

/-!
# Host values of a type

`HostValue.HasType v t` says that the host value `v` inhabits the declared type `t`, in terms of the
values alone: ranges are powers of two, an object has the very class of the type, and null inhabits
the types that admit it. Conversion does not occur in it.

Code of the host trusts its declarations. `Event.Typed` says of the events in which such code is
handed values that the values inhabit what was declared: the arguments of a body its parameters, one
for each, and the value of a setter the type of its member.
-/

set_option autoImplicit false

namespace ScriptHost

/-- **A host value inhabits a type.** -/
inductive HostValue.HasType : HostValue → HostType → Prop where
  | null {t : HostType} (h : t.admitsNull = true) : HasType .null t
  | void : HasType .null .void
  | bool (x : Bool) : HasType (.bool x) .bool
  | signed {width : Width} {i : Int64} (hmin : -2 ^ (width.bits - 1) ≤ i.toInt)
      (hmax : i.toInt < 2 ^ (width.bits - 1)) : HasType (.int i) (.integer ⟨true, width⟩)
  | unsigned {width : Width} {u : UInt64} (hmax : u.toNat < 2 ^ width.bits) :
      HasType (.uint u) (.integer ⟨false, width⟩)
  /-- Infinities and what is no number are in the range of single precision too. -/
  | single {x : Binary64}
      (h : x.isFinite = true → x.magnitude ≤ Binary64.maxSingle * Binary64.unit) :
      HasType (.float x) .single
  | double (x : Binary64) : HasType (.float x) .double
  | string (s : String) : HasType (.string s) .string
  | array {items : List HostValue} {element : HostType} (h : ∀ x ∈ items, HasType x element) :
      HasType (.array items) (.array element)
  | object {o : ObjectRef} {c : ClassRef} (h : o.cls.same c = true) :
      HasType (.object o) (.object c)
  | table (t : TableRef) : HasType (.script (.table t)) .table
  | function (f : FunctionRef) : HasType (.script (.function f)) .function
  | nullable {v : HostValue} {t : HostType} (h : HasType v t) : HasType v (.nullable t)
  | any (v : HostValue) : HasType v .any

/-! ### Numbers that fit -/

/-- No type is wider than a word. -/
theorem Width.bits_le (width : Width) : width.bits ≤ 64 := by
  cases width <;> decide

namespace IntType

/-- Signed values go from minus a power of two up to that power, which is left out. -/
theorem mem_range_signed {width : Width} {n : Int} :
    (min ⟨true, width⟩ ≤ n ∧ n ≤ max ⟨true, width⟩) ↔
      -2 ^ (width.bits - 1) ≤ n ∧ n < 2 ^ (width.bits - 1) := by
  have hbound : ((bound ⟨true, width⟩ : Nat) : Int) = 2 ^ (width.bits - 1) := by
    simp [bound, Nat.one_shiftLeft]
  simp only [min, max, hbound, if_true]
  exact and_congr_right fun _ => Int.le_sub_one_iff

/-- Unsigned values go from zero up to a power of two, which is left out. -/
theorem mem_range_unsigned {width : Width} {n : Int} :
    (min ⟨false, width⟩ ≤ n ∧ n ≤ max ⟨false, width⟩) ↔ 0 ≤ n ∧ n < 2 ^ width.bits := by
  have hbound : ((bound ⟨false, width⟩ : Nat) : Int) = 2 ^ width.bits := by
    simp [bound, Nat.one_shiftLeft]
  simp only [min, max, hbound, Bool.false_eq_true, if_false]
  exact and_congr_right fun _ => Int.le_sub_one_iff

/-- What fits is in the range, and the host integer is the number. -/
theorem fit_eq_ok {t : IntType} {n : Int} {v : HostValue} (h : t.fit n = .ok v) :
    (t.min ≤ n ∧ n ≤ t.max) ∧ v = t.value n := by
  unfold fit at h
  split at h
  · next hrange => exact ⟨hrange, (Except.ok.inj h).symm⟩
  · cases h

/-- A number in the range of the type is converted. -/
theorem fit_of_range {t : IntType} {n : Int} (h : t.min ≤ n ∧ n ≤ t.max) :
    t.fit n = .ok (t.value n) :=
  if_pos h

/-- A float fits only as the integer that it is. -/
theorem fitFloat_eq_ok {t : IntType} {x : Binary64} {v : HostValue} (h : t.fitFloat x = .ok v) :
    ∃ n, x.toInt? = some n ∧ n.natAbs < wideIntegerBound ∧ t.fit n = .ok v := by
  unfold fitFloat at h
  cases hx : x.toInt? with
  | none =>
    rw [hx] at h
    cases h
  | some n =>
    simp only [hx] at h
    split at h
    · next hsmall => exact ⟨n, rfl, hsmall, h⟩
    · cases h

/-- **What fits an integer type inhabits it.** The word is wide enough for the number. -/
theorem hasType_of_fit {t : IntType} {n : Int} {v : HostValue} (h : t.fit n = .ok v) :
    v.HasType (.integer t) := by
  obtain ⟨hrange, rfl⟩ := fit_eq_ok h
  -- In an unsigned type the number is not negative, and its bits are those of the word.
  obtain ⟨_ | _, width⟩ := t
  · rw [mem_range_unsigned] at hrange
    obtain ⟨hmin, hmax⟩ := hrange
    have hnat : n.toNat < 2 ^ width.bits := by
      rw [← Int.toNat_of_nonneg hmin] at hmax
      exact_mod_cast hmax
    have hword : n.toNat < 2 ^ 64 :=
      Nat.lt_of_lt_of_le hnat (Nat.pow_le_pow_right (by decide) width.bits_le)
    refine .unsigned ?_
    rwa [UInt64.toNat_ofNat_of_lt' hword]
  -- In a signed type one bit is the sign.
  · rw [mem_range_signed] at hrange
    obtain ⟨hmin, hmax⟩ := hrange
    have hwide : (2 : Int) ^ (width.bits - 1) ≤ 2 ^ 63 := by
      exact_mod_cast Nat.pow_le_pow_right (by decide) (Nat.sub_le_sub_right width.bits_le 1)
    have hword : (Int64.ofInt n).toInt = n :=
      Int64.toInt_ofInt_of_le (by omega) (by omega)
    refine .signed ?_ ?_
    · rwa [hword]
    · rwa [hword]

/-- A float that is converted is an integer in the range of the type. -/
theorem hasType_of_fitFloat {t : IntType} {x : Binary64} {v : HostValue}
    (h : t.fitFloat x = .ok v) : v.HasType (.integer t) := by
  obtain ⟨n, -, -, hfit⟩ := fitFloat_eq_ok h
  exact hasType_of_fit hfit

end IntType

/-- What fits single precision inhabits it. -/
theorem Binary64.hasType_of_fitsSingle {x : Binary64} (h : x.fitsSingle = true) :
    (HostValue.float x).HasType .single := by
  refine .single fun hx => ?_
  simpa [fitsSingle, hx] using h

/-! ### What code of the host is handed -/

/-- A setter of the member may be started with the value. -/
def Member.Takes (v : HostValue) : Member → Prop
  | .method _ => False
  | .property p => v.HasType p.type
  | .field f => v.HasType f.type

/-- Code of the host is handed what it declared. -/
def Event.Typed : Event → Prop
  | .body _ _ params args => List.Forall₂ HostValue.HasType args params
  | .setter _ _ m v => m.Takes v
  | _ => True

end ScriptHost
