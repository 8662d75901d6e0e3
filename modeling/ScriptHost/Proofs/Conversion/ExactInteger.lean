import ScriptHost.Convert.ToHost
import ScriptHost.Proofs.Act.Outcome
import ScriptHost.Proofs.Conversion.HasType
import ScriptHost.Proofs.Number.Nearest

/-!
# Numbers convert to integers exactly

A script number has an exact value: an integer is itself, and a finite float is the rational number
that its fields say (`ScriptValue.exactValue?`). Conversion to an integer type is settled by that
value alone (`IntType.Settles`). It succeeds for the integers of the type, and the host integer is
the very number; a float without an integer value has no integer representation; an integer that the
type does not contain is out of range. **Nothing is truncated, wrapped or saturated**
(`exact_integer_conversion`): a float is converted as the integer that it is, and the ranges of all
types are within what a host integer can hold.
-/

set_option autoImplicit false

namespace ScriptHost

/-- The exact value of a number. The infinities have none, nor has what is not a number. -/
def ScriptValue.exactValue? : ScriptValue → Option ℚ
  | .integer i => some (i.toInt : ℚ)
  | .number x => if x.isFinite then some x.value else none
  | _ => none

namespace IntType

/-- The integers of a type. -/
def Contains : IntType → ℤ → Prop
  | ⟨true, width⟩, n => -2 ^ (width.bits - 1) ≤ n ∧ n < 2 ^ (width.bits - 1)
  | ⟨false, width⟩, n => 0 ≤ n ∧ n < 2 ^ width.bits

/-- The host value is this number, as an integer of the type's sign. -/
inductive Exactly : IntType → ℤ → HostValue → Prop
  | signed {width : Width} {n : ℤ} {i : Int64} (h : i.toInt = n) : Exactly ⟨true, width⟩ n (.int i)
  | unsigned {width : Width} {n : ℤ} {u : UInt64} (h : u.toNat = n) :
      Exactly ⟨false, width⟩ n (.uint u)

/-- **The exact value of a number settles what becomes of it** at an integer type. -/
structure Settles (t : IntType) (v : ScriptValue) (r : Except ConversionError HostValue) :
    Prop where
  succeeds : ∀ x, r = .ok x ↔
    ∃ n : ℤ, v.exactValue? = some (n : ℚ) ∧ t.Contains n ∧ t.Exactly n x
  /-- Only a float has no integer value. The error names the float and the type. -/
  noInteger : ∀ x name, r = .error (.noIntegerRepresentation x name) ↔
    v = .number x ∧ name = t.name ∧ ∀ n : ℤ, v.exactValue? ≠ some (n : ℚ)
  outOfRange : ∀ name, (∃ text, r = .error (.outOfRange text name)) ↔
    name = t.name ∧ ∃ n : ℤ, v.exactValue? = some (n : ℚ) ∧ ¬ t.Contains n

variable {t : IntType} {n : ℤ} {v : ScriptValue} {x : HostValue}

/-! ### Ranges -/

/-- The integers of the type are those between its bounds. -/
theorem contains_iff : t.Contains n ↔ t.min ≤ n ∧ n ≤ t.max := by
  obtain ⟨_ | _, width⟩ := t
  · exact mem_range_unsigned.symm
  · exact mem_range_signed.symm

/-- The integers of every type are among those of sixty-four bits. -/
theorem Contains.bounds (h : t.Contains n) : -2 ^ 63 ≤ n ∧ n < 2 ^ 64 := by
  obtain ⟨_ | _, width⟩ := t
  · obtain ⟨hmin, hmax⟩ := h
    have hle : (2 : ℤ) ^ width.bits ≤ 2 ^ 64 := pow_le_pow_right₀ one_le_two width.bits_le
    omega
  · obtain ⟨hmin, hmax⟩ := h
    have hle : (2 : ℤ) ^ (width.bits - 1) ≤ 2 ^ 63 :=
      pow_le_pow_right₀ one_le_two (Nat.sub_le_sub_right width.bits_le 1)
    omega

/-- What is reported by its text as a float is in the range of no type. -/
theorem Contains.natAbs_lt (h : t.Contains n) : n.natAbs < wideIntegerBound := by
  obtain ⟨hmin, hmax⟩ := h.bounds
  rw [wideIntegerBound, Nat.one_shiftLeft]
  omega

/-- The host integer of a number that the type contains is that number, and no other is. -/
theorem exactly_iff (h : t.Contains n) : t.Exactly n x ↔ x = t.value n := by
  obtain ⟨hmin, hmax⟩ := h.bounds
  obtain ⟨_ | _, width⟩ := t
  -- An unsigned word holds every number of an unsigned type.
  · have hnat : (UInt64.ofNat n.toNat).toNat = n.toNat :=
      UInt64.toNat_ofNat_of_lt' (show n.toNat < 2 ^ 64 by omega)
    have hn : ((UInt64.ofNat n.toNat).toNat : ℤ) = n := by
      rw [hnat, Int.toNat_of_nonneg h.1]
    constructor
    · intro hx
      cases hx with | unsigned hu =>
      rw [value, if_neg Bool.false_ne_true, ← hu, Int.toNat_natCast, UInt64.ofNat_toNat]
    · rintro rfl
      rw [value, if_neg Bool.false_ne_true]
      exact .unsigned hn
  -- A signed word holds every number of a signed type.
  · have hlt : n < 2 ^ 63 := by
      have hle : (2 : ℤ) ^ (width.bits - 1) ≤ 2 ^ 63 :=
        pow_le_pow_right₀ one_le_two (Nat.sub_le_sub_right width.bits_le 1)
      exact h.2.trans_le hle
    have hn : (Int64.ofInt n).toInt = n := Int64.toInt_ofInt_of_le hmin hlt
    constructor
    · intro hx
      cases hx with | signed hi =>
      rw [value, if_pos rfl, ← hi, Int64.ofInt_toInt]
    · rintro rfl
      rw [value, if_pos rfl]
      exact .signed hn

/-! ### Integers and floats -/

/-- The exact value of a float is the integer that it converts as. -/
theorem exactValue?_number {x : Binary64} :
    (ScriptValue.number x).exactValue? = some (n : ℚ) ↔ x.toInt? = some n := by
  rw [Binary64.toInt?_eq_some_iff, ← Binary64.value_eq_int_iff]
  cases h : x.isFinite <;> simp [ScriptValue.exactValue?, h]

/-- An integer settles in the range of the type or out of it. -/
theorem settles_integer {r : Except ConversionError HostValue}
    (hv : v.exactValue? = some (n : ℚ)) (hin : t.Contains n → r = .ok (t.value n))
    (hout : ¬ t.Contains n → ∃ text, r = .error (.outOfRange text t.name)) : t.Settles v r := by
  -- A value has one exact value only.
  have hunique {m : ℤ} (hm : v.exactValue? = some (m : ℚ)) : m = n := by
    rw [hv, Option.some.injEq] at hm
    exact_mod_cast hm.symm
  -- Of the three clauses one is met, and the number excludes the others.
  by_cases h : t.Contains n
  · obtain rfl := hin h
    refine ⟨fun x => ⟨fun hx => ?_, ?_⟩, fun x name => ⟨nofun, ?_⟩, fun name => ⟨nofun, ?_⟩⟩
    · exact ⟨n, hv, h, (exactly_iff h).mpr (Except.ok.inj hx).symm⟩
    · rintro ⟨m, hm, -, hx⟩
      obtain rfl := hunique hm
      rw [(exactly_iff h).mp hx]
    · rintro ⟨-, -, hnone⟩
      exact absurd hv (hnone n)
    · rintro ⟨-, m, hm, hout⟩
      exact absurd (hunique hm ▸ h) hout
  · obtain ⟨text, rfl⟩ := hout h
    refine ⟨fun x => ⟨nofun, ?_⟩, fun x name => ⟨nofun, ?_⟩, fun name => ⟨?_, ?_⟩⟩
    · rintro ⟨m, hm, hin, -⟩
      exact absurd (hunique hm ▸ hin) h
    · rintro ⟨-, -, hnone⟩
      exact absurd hv (hnone n)
    · rintro ⟨text', htext⟩
      cases htext
      exact ⟨rfl, n, hv, h⟩
    · rintro ⟨rfl, -⟩
      exact ⟨text, rfl⟩

/-- A float that is no integer. -/
theorem settles_noInteger {x : Binary64} (hx : x.toInt? = none) :
    t.Settles (.number x) (.error (.noIntegerRepresentation x t.name)) := by
  have hnone (n : ℤ) : (ScriptValue.number x).exactValue? ≠ some (n : ℚ) := by
    rw [Ne, exactValue?_number, hx]
    exact nofun
  refine ⟨fun y => ⟨nofun, ?_⟩, fun y name => ⟨?_, ?_⟩, fun name => ⟨nofun, ?_⟩⟩
  -- The float is no integer, so there is none that it could be settled for.
  · rintro ⟨n, hn, -⟩
    exact absurd hn (hnone n)
  · intro h
    cases h
    exact ⟨rfl, rfl, hnone⟩
  · rintro ⟨h, rfl, -⟩
    cases h
    rfl
  · rintro ⟨-, n, hn, -⟩
    exact absurd hn (hnone n)

/-- An integer in the script's own form, or any other value that is exactly one. -/
theorem settles_fit (hv : v.exactValue? = some (n : ℚ)) : t.Settles v (t.fit n) := by
  refine settles_integer hv (fun h => fit_of_range (contains_iff.mp h)) fun h => ?_
  rw [contains_iff] at h
  exact ⟨_, if_neg h⟩

/-- A float is settled by the integer that it is, if it is one. -/
theorem settles_fitFloat (t : IntType) (x : Binary64) :
    t.Settles (.number x) (t.fitFloat x) := by
  unfold fitFloat
  cases hx : x.toInt? with
  | none => exact settles_noInteger hx
  | some n =>
    have hv := exactValue?_number.mpr hx
    simp only
    split
    · exact settles_fit hv
    · next hwide =>
      exact settles_integer hv (fun h => absurd h.natAbs_lt hwide) fun _ => ⟨_, rfl⟩

end IntType

namespace Act

/-- Conversion of a number to an integer type looks at nothing but the number. -/
theorem outcome_toHost_integer (via : BindingRef) (t : IntType) (i : Int64) (w : World) :
    (toHost via (.integer t) (.integer i)).outcome w = (t.fit i.toInt, w) := by
  rw [toHost, outcome_bind_ok (outcome_look _ w)]
  rfl

/-- The conversion of a float looks at nothing in the world. -/
theorem outcome_toHost_number (via : BindingRef) (t : IntType) (x : Binary64) (w : World) :
    (toHost via (.integer t) (.number x)).outcome w = (t.fitFloat x, w) := by
  rw [toHost, outcome_bind_ok (outcome_look _ w)]
  rfl

end Act

/-- **Exact integer conversion.** A number converts to an integer type by its exact value, in every
world and under every binding, and conversion leaves the world as it is. -/
theorem exact_integer_conversion {v : ScriptValue} (hv : v.kind = .number) (via : BindingRef)
    (t : IntType) (w : World) :
    ∃ r, (Act.toHost via (.integer t) v).outcome w = (r, w) ∧ t.Settles v r := by
  cases v with
  | integer i => exact ⟨_, Act.outcome_toHost_integer via t i w, IntType.settles_fit rfl⟩
  | number x => exact ⟨_, Act.outcome_toHost_number via t x w, IntType.settles_fitFloat t x⟩
  | _ => cases hv

/-- `2 ^ 63` as a float, the least integer above all that are signed. -/
theorem exact_integer_conversion_twoPow63 :
    (ScriptValue.number ⟨0x43e0000000000000⟩).kind = .number ∧
      ∃ r, (Act.toHost ⟨0⟩ (.integer ⟨true, .w64⟩) (.number ⟨0x43e0000000000000⟩)).outcome
          (.start .default fun r => r.index) = (r, .start .default fun r => r.index) ∧
        IntType.Settles ⟨true, .w64⟩ (.number ⟨0x43e0000000000000⟩) r :=
  ⟨rfl, exact_integer_conversion rfl ⟨0⟩ ⟨true, .w64⟩ _⟩

end ScriptHost
