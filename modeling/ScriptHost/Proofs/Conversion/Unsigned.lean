import ScriptHost.Proofs.Conversion.ExactInteger
import ScriptHost.Proofs.Conversion.Represents

/-!
# Unsigned integers in script

Script integers are signed. An unsigned integer up to `2 ^ 63` is one of them; from there on it
travels as the float nearest to it, and floats of that size are `2 ^ 11` apart. So the upper half of
the unsigned integers is thinned out on its way into script. What comes back is the float's value:
the integer itself if it is a multiple of `2 ^ 11`, a neighbour if it is not, and nothing at all if
the nearest float is `2 ^ 64`, which is out of range. Two integers of the upper half are raw equal in
script when one float is nearest to both, and two of the lower half never are unless they are one.

Main statement: `unsigned_travel`. `unsigned_not_always_kept` has an integer that comes back as its
neighbour, is raw equal to it, and one that does not come back.
-/

set_option autoImplicit false

namespace ScriptHost

open Act

/-- Unsigned integers of sixty-four bits. -/
def IntType.u64 : IntType := ⟨false, .w64⟩

variable {u v : UInt64} {via : BindingRef} {w : World}

/-! ### The way into script -/

/-- An unsigned integer in script is a number only, and the world stays as it is. -/
theorem outcome_toScript_uint (via : BindingRef) (u : UInt64) (w : World) :
    (toScript via (.uint u) : Act ConversionError ScriptValue).outcome w =
      (.ok (ofUInt64 u), w) := by
  rw [toScript, outcome_pure]

/-- A number that fits into a script integer becomes one. -/
theorem ofUInt64_integer (h : u.toNat < 2 ^ 63) :
    ∃ i : Int64, ofUInt64 u = .integer i ∧ i.toInt = u.toNat :=
  ⟨_, if_pos h, Int64.toInt_ofNat_of_lt h⟩

/-- Any other number becomes the nearest float. -/
theorem ofUInt64_number (h : 2 ^ 63 ≤ u.toNat) :
    ofUInt64 u = .number (Binary64.ofInt u.toNat) :=
  if_neg (Nat.not_lt.mpr h)

/-- No number of this size is too large for a float. -/
theorem log2_toNat_lt (u : UInt64) : u.toNat.log2 < 1023 := by
  have hlt := u.toNat_lt
  exact log2_natAbs_lt (n := u.toNat) (by omega)

/-- The float is a nearest one. -/
theorem nearest_ofInt (u : UInt64) : Binary64.Nearest u.toNat (Binary64.ofInt u.toNat) :=
  (Binary64.nearest_iff (log2_toNat_lt u)).mpr ⟨Binary64.isFinite_ofInt (log2_toNat_lt u), rfl⟩

/-! ### The upper half -/

/-- The float of a large integer is a multiple of `2 ^ 11`, half of that away at most. On a tie the
multiple is even. -/
theorem value_ofInt (h : 2 ^ 63 ≤ u.toNat) :
    ∃ q : ℕ, (Binary64.ofInt u.toNat).value = ((2 ^ 11 * q : ℕ) : ℚ) ∧
      u.toNat ≤ 2 ^ 11 * q + 2 ^ 10 ∧ 2 ^ 11 * q ≤ u.toNat + 2 ^ 10 ∧
      (u.toNat = 2 ^ 11 * q + 2 ^ 10 → Even q) := by
  have hlt := u.toNat_lt
  -- The number has sixty-four bits, of which a float keeps the first fifty-three.
  have hlog : u.toNat.log2 = 52 + 11 := (Nat.log2_eq_iff (by omega)).mpr ⟨h, hlt⟩
  have hscaled := Binary64.scaled_ofInt_of_long hlog (by decide) (log2_toNat_lt u)
  obtain ⟨hdist, htie⟩ := Binary64.roundShift_dist u.toNat 11
  generalize Binary64.roundShift u.toNat 11 = q at *
  refine ⟨q, ?_, ?_, ?_, fun h => htie ?_⟩
  · rw [Binary64.value_eq_int_iff.mpr hscaled]
    push_cast
    rfl
  -- Rounding moves the number by half of the last bit at most.
  · have := neg_abs_le ((2 ^ 11 * q : ℤ) - u.toNat)
    omega
  · have := le_abs_self ((2 ^ 11 * q : ℤ) - u.toNat)
    omega
  · rw [abs_of_nonpos (by omega)]
    omega

/-- A large integer is kept by its float if it is a multiple of `2 ^ 11`. -/
theorem value_ofInt_eq_iff (h : 2 ^ 63 ≤ u.toNat) :
    (Binary64.ofInt u.toNat).value = (u.toNat : ℚ) ↔ 2 ^ 11 ∣ u.toNat := by
  have hlt := u.toNat_lt
  have hlog : u.toNat.log2 = 63 := (Nat.log2_eq_iff (by omega)).mpr ⟨h, hlt⟩
  constructor
  · intro hvalue
    obtain ⟨q, hq, -⟩ := value_ofInt h
    rw [hvalue] at hq
    exact ⟨q, by exact_mod_cast hq⟩
  · intro hdvd
    refine Binary64.value_eq_int_iff.mpr (Binary64.scaled_ofInt_of_short ?_ fun _ => ?_)
    · exact log2_toNat_lt u
    · rwa [Int.natAbs_natCast, hlog]

/-! ### There and back -/

/-- Nothing is held on the way, so the way back starts in the same world. -/
theorem outcome_roundTrip_uint {t : HostType} {r : Except ConversionError HostValue}
    (h : (toHost via t (ofUInt64 u)).outcome w = (r, w))
    (hheld : handles (ofUInt64 u) = []) : (roundTrip via t (.uint u)).outcome w = (r, w) := by
  have hback : (holding (handles (ofUInt64 u)) (toHost via t (ofUInt64 u))).outcome w = (r, w) := by
    rw [outcome_holding, hheld, List.nil_append, h]
  have hnone : handles (HostValue.uint u) = [] := rfl
  rw [roundTrip, outcome_holding, hnone, List.nil_append,
    outcome_bind_ok (outcome_toScript_uint via u w), hback]

/-- The lower half comes back. -/
theorem outcome_roundTrip_small (h : u.toNat < 2 ^ 63) :
    (roundTrip via (.integer .u64) (.uint u)).outcome w = (.ok (.uint u), w) := by
  obtain ⟨i, hi, hvalue⟩ := ofUInt64_integer h
  have hlt := u.toNat_lt
  have hcontains : IntType.u64.Contains i.toInt := by
    rw [hvalue]
    exact ⟨Int.natCast_nonneg _, by exact_mod_cast hlt⟩
  have hfit : IntType.u64.fit i.toInt = .ok (.uint u) :=
    ((IntType.settles_fit (v := .integer i) rfl).succeeds _).mpr
      ⟨_, rfl, hcontains, .unsigned hvalue.symm⟩
  refine outcome_roundTrip_uint ?_ (by rw [hi]; rfl)
  rw [hi, outcome_toHost_integer, hfit]

/-- The upper half comes back as what its float converts to. -/
theorem outcome_roundTrip_large (h : 2 ^ 63 ≤ u.toNat) :
    (roundTrip via (.integer .u64) (.uint u)).outcome w =
      (IntType.u64.fitFloat (Binary64.ofInt u.toNat), w) := by
  have hu := ofUInt64_number h
  refine outcome_roundTrip_uint ?_ (by rw [hu]; rfl)
  rw [hu, outcome_toHost_number]

/-- A float that is an unsigned integer converts to it. -/
theorem fitFloat_u64 {x : Binary64} (hx : x.isFinite = true) :
    IntType.u64.fitFloat x = .ok (.uint u) ↔ x.value = (u.toNat : ℚ) := by
  have hlt := u.toNat_lt
  rw [(IntType.settles_fitFloat .u64 x).succeeds, ScriptValue.exactValue?, if_pos hx]
  constructor
  · rintro ⟨n, hn, -, hu⟩
    cases hu with | unsigned hu =>
    rw [Option.some.inj hn, ← hu]
    rfl
  · intro hvalue
    refine ⟨u.toNat, congrArg some hvalue, ⟨Int.natCast_nonneg _, ?_⟩, .unsigned rfl⟩
    exact_mod_cast hlt

/-- The upper half, from the float's value: an unsigned integer, or `2 ^ 64` at the very end. -/
theorem roundTrip_large (h : 2 ^ 63 ≤ u.toNat) :
    (u.toNat < 2 ^ 64 - 2 ^ 10 ∧ ∃ m : UInt64, (Binary64.ofInt u.toNat).value = (m.toNat : ℚ) ∧
        (roundTrip via (.integer .u64) (.uint u)).outcome w = (.ok (.uint m), w)) ∨
      (2 ^ 64 - 2 ^ 10 ≤ u.toNat ∧ (Binary64.ofInt u.toNat).value = 2 ^ 64 ∧
        ∃ text, (roundTrip via (.integer .u64) (.uint u)).outcome w =
          (.error (.outOfRange text IntType.u64.name), w)) := by
  have hlt := u.toNat_lt
  have hfinite := (nearest_ofInt u).finite
  obtain ⟨q, hq, hmin, hmax, heven⟩ := value_ofInt h
  rw [outcome_roundTrip_large h]
  by_cases hend : u.toNat < 2 ^ 64 - 2 ^ 10
  · have hword : (UInt64.ofNat (2 ^ 11 * q)).toNat = 2 ^ 11 * q :=
      UInt64.toNat_ofNat_of_lt' (show 2 ^ 11 * q < 2 ^ 64 by omega)
    rw [← hword] at hq
    refine .inl ⟨hend, _, hq, ?_⟩
    rw [(fitFloat_u64 hfinite).mpr hq]
  · have hlast : q = 2 ^ 53 := by
      by_contra hne
      -- The float before `2 ^ 64` would be on a tie, and its significand is odd.
      have hodd : q = 2 ^ 53 - 1 := by omega
      have := heven (by omega)
      rw [hodd] at this
      exact absurd this (by decide)
    have hvalue : (Binary64.ofInt u.toNat).value = ((2 ^ 64 : ℤ) : ℚ) := by
      rw [hq, hlast]
      norm_num
    refine .inr ⟨Nat.not_lt.mp hend, by rw [hvalue]; norm_num, ?_⟩
    obtain ⟨text, htext⟩ := ((IntType.settles_fitFloat .u64 _).outOfRange _).mpr
      ⟨rfl, 2 ^ 64, by rw [ScriptValue.exactValue?, if_pos hfinite, hvalue], fun hin =>
        absurd hin.bounds.2 (by decide)⟩
    exact ⟨text, by rw [htext]⟩

/-! ### Raw equality -/

/-- Floats of unsigned integers are equal if they are one float, up to the sign of zero. -/
theorem equals_ofInt_iff :
    (Binary64.ofInt u.toNat).equals (Binary64.ofInt v.toNat) = true ↔
      ∃ x, Binary64.Nearest u.toNat x ∧ Binary64.Nearest v.toNat x := by
  have hu := nearest_ofInt u
  have hv := nearest_ofInt v
  rw [Binary64.equals, Binary64.isNaN_of_isFinite hu.finite, Binary64.isNaN_of_isFinite hv.finite,
    Bool.not_false, Bool.true_and, Bool.true_and, beq_iff_eq, ← Binary64.value_eq_iff_scaled]
  constructor
  · intro h
    exact ⟨_, hu, (Binary64.nearest_iff (log2_toNat_lt v)).mpr ⟨hu.finite, h⟩⟩
  · rintro ⟨x, hxu, hxv⟩
    rw [← ((Binary64.nearest_iff (log2_toNat_lt u)).mp hxu).2,
      ((Binary64.nearest_iff (log2_toNat_lt v)).mp hxv).2]

/-- Different integers of the lower half stay different. -/
theorem rawEquals_small (h : u.toNat < v.toNat) (hv : v.toNat < 2 ^ 63) :
    (ofUInt64 u).rawEquals (ofUInt64 v) = false := by
  obtain ⟨i, hi, hivalue⟩ := ofUInt64_integer (h.trans hv)
  obtain ⟨j, hj, hjvalue⟩ := ofUInt64_integer hv
  rw [hi, hj]
  refine beq_eq_false_iff_ne.mpr fun hij => ?_
  rw [hij, hjvalue] at hivalue
  omega

/-- Integers of the upper half are compared as their floats. -/
theorem rawEquals_large (hu : 2 ^ 63 ≤ u.toNat) (hv : 2 ^ 63 ≤ v.toNat) :
    (ofUInt64 u).rawEquals (ofUInt64 v) = true ↔
      ∃ x, Binary64.Nearest u.toNat x ∧ Binary64.Nearest v.toNat x := by
  rw [ofUInt64_number hu, ofUInt64_number hv, ScriptValue.rawEquals]
  exact equals_ofInt_iff

/-- Different integers need a float that is nearest to both to be raw equal, whatever halves they are
from. -/
theorem nearest_of_rawEquals (h : u.toNat < v.toNat)
    (heq : (ofUInt64 u).rawEquals (ofUInt64 v) = true) :
    ∃ x, Binary64.Nearest u.toNat x ∧ Binary64.Nearest v.toNat x := by
  -- The greater of the two decides: below the bound both are integers and differ.
  rcases Nat.lt_or_ge v.toNat (2 ^ 63) with hv | hv
  · rw [rawEquals_small h hv] at heq
    cases heq
  · rcases Nat.lt_or_ge u.toNat (2 ^ 63) with hu | hu
    · -- An integer is raw equal to a float only if its own float is.
      obtain ⟨i, hi, hivalue⟩ := ofUInt64_integer hu
      rw [hi, ofUInt64_number hv, ScriptValue.rawEquals, hivalue] at heq
      exact equals_ofInt_iff.mp heq
    · exact (rawEquals_large hu hv).mp heq

/-! ### Unsigned integers there and back -/

/-- **What becomes of unsigned integers in script.** They come back unchanged in the lower half and
as multiples of `2 ^ 11`. In the upper half an integer is the nearest float; it comes back as the
float's value, unless that is `2 ^ 64` and out of range, from half a float's distance below it
on. Of two different integers, two of the lower half are never raw equal in script, two of the upper
half exactly if one float is nearest to both, and one of each only if there is such a float. -/
theorem unsigned_travel (via : BindingRef) (w : World) (u : UInt64) :
    ((roundTrip via (.integer .u64) (.uint u)).outcome w = (.ok (.uint u), w) ↔
        u.toNat < 2 ^ 63 ∨ 2 ^ 11 ∣ u.toNat) ∧
      (2 ^ 63 ≤ u.toNat → ∃ x, Binary64.Nearest u.toNat x ∧
        (toScript via (.uint u) : Act ConversionError ScriptValue).outcome w =
          (.ok (.number x), w) ∧
        ((u.toNat < 2 ^ 64 - 2 ^ 10 ∧ ∃ m : UInt64, x.value = (m.toNat : ℚ) ∧
            (roundTrip via (.integer .u64) (.uint u)).outcome w = (.ok (.uint m), w)) ∨
          (2 ^ 64 - 2 ^ 10 ≤ u.toNat ∧ x.value = 2 ^ 64 ∧
            ∃ text, (roundTrip via (.integer .u64) (.uint u)).outcome w =
              (.error (.outOfRange text IntType.u64.name), w)))) ∧
      ∀ v : UInt64, u.toNat < v.toNat → ∃ a b : ScriptValue,
        (toScript via (.uint u) : Act ConversionError ScriptValue).outcome w = (.ok a, w) ∧
        (toScript via (.uint v) : Act ConversionError ScriptValue).outcome w = (.ok b, w) ∧
        (v.toNat < 2 ^ 63 → a.rawEquals b = false) ∧
        (2 ^ 63 ≤ u.toNat → (a.rawEquals b = true ↔
          ∃ x, Binary64.Nearest u.toNat x ∧ Binary64.Nearest v.toNat x)) ∧
        (a.rawEquals b = true →
          ∃ x, Binary64.Nearest u.toNat x ∧ Binary64.Nearest v.toNat x) := by
  refine ⟨?_, fun h => ?_, fun v hv => ?_⟩
  · rcases Nat.lt_or_ge u.toNat (2 ^ 63) with h | h
    · exact iff_of_true (outcome_roundTrip_small h) (.inl h)
    · rw [outcome_roundTrip_large h, Prod.mk.injEq, and_iff_left rfl,
        fitFloat_u64 (nearest_ofInt u).finite, value_ofInt_eq_iff h]
      exact (or_iff_right (Nat.not_lt.mpr h)).symm
  · refine ⟨_, nearest_ofInt u, ?_, roundTrip_large h⟩
    rw [outcome_toScript_uint, ofUInt64_number h]
  · refine ⟨_, _, outcome_toScript_uint via u w, outcome_toScript_uint via v w, ?_, ?_, ?_⟩
    · exact rawEquals_small hv
    · exact fun h => rawEquals_large h (h.trans hv.le)
    · exact nearest_of_rawEquals hv

/-- Of two neighbours in the upper half, the odd one comes back as the even one and is raw equal to
it in script. The greatest integer of all does not come back. -/
theorem unsigned_not_always_kept :
    let w : World := .start .default fun r => r.index
    let back (u : UInt64) := ((roundTrip ⟨0⟩ (.integer .u64) (.uint u)).outcome w).1
    back 0x8000000000000001 = .ok (.uint 0x8000000000000000) ∧
      HostValue.uint 0x8000000000000001 ≠ .uint 0x8000000000000000 ∧
      (ofUInt64 0x8000000000000001).rawEquals (ofUInt64 0x8000000000000000) = true ∧
      back 0xffffffffffffffff = .error (.outOfRange "18446744073709551616" "u64") := by
  intro w back
  -- The way back reads the integer that the float is, and asks whether it fits.
  have hback {u : UInt64} {n : ℤ} (h : 2 ^ 63 ≤ u.toNat)
      (hfloat : (Binary64.ofInt u.toNat).toInt? = some n) (hn : n.natAbs < wideIntegerBound) :
      back u = IntType.u64.fit n := by
    change ((roundTrip ⟨0⟩ (.integer .u64) (.uint u)).outcome w).1 = _
    rw [outcome_roundTrip_large h, IntType.fitFloat, hfloat]
    exact if_pos hn
  refine ⟨?_, ?_, by decide +kernel, ?_⟩
  -- The number is rounded down to one that fits, and the last one of all is rounded up to one that
  -- does not.
  · rw [hback (n := 2 ^ 63) (by decide) (by decide +kernel) (by decide)]
    rfl
  · intro h
    cases h
  · rw [hback (n := 2 ^ 64) (by decide) (by decide +kernel) (by decide)]
    rfl

end ScriptHost
