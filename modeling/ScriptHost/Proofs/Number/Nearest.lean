import Mathlib.Algebra.Order.Field.Rat
import Mathlib.Algebra.Order.Ring.Abs
import Mathlib.Algebra.Ring.Parity
import Mathlib.Tactic.FieldSimp
import Mathlib.Tactic.Linarith
import ScriptHost.Proofs.Number.ExactValue

/-!
# The float nearest to an integer

The value of a finite float as a rational number is what its sign, exponent and fraction say
(`Binary64.value`); it is the integer that the arithmetic works with, taken in units
(`value_mul_unit`). With it, rounding has a definition that says nothing about bits: a float is
nearest to an integer if no finite float is closer, and if on a tie its significand is even
(`Binary64.Nearest`).

Floats of the size of `2 ^ (52 + s)` and above are the multiples of `2 ^ s`
(`exists_value_eq`), so the nearest one of an integer of that size is its nearest multiple. That is
what `roundShift` computes (`roundShift_dist`), and **`ofInt` gives the nearest float and no other
value does** (`nearest_iff`).
-/

set_option autoImplicit false

namespace ScriptHost

namespace Binary64

/-- The value of a finite float, read off its fields. A word with exponent bits has a leading bit
in front of its fraction. -/
def value (x : Binary64) : ℚ :=
  (if x.negative then -1 else 1) *
    if x.exponent = 0 then (x.fraction : ℚ) * 2 ^ (-1074 : ℤ)
    else (2 ^ 52 + x.fraction : ℚ) * 2 ^ ((x.exponent : ℤ) - 1075)

/-- The float is **nearest** to the integer. -/
structure Nearest (n : ℕ) (x : Binary64) : Prop where
  finite : x.isFinite = true
  closest : ∀ y : Binary64, y.isFinite = true → |x.value - n| ≤ |y.value - n|
  /-- Of two floats that are equally near, the one with the even significand. -/
  even : ∀ y : Binary64, y.isFinite = true → y.value ≠ x.value → |y.value - n| = |x.value - n| →
    Even x.significand

variable {x y : Binary64} {n s : ℕ}

/-! ### The value and its units -/

/-- A unit as a power of two. -/
theorem unit_cast : (unit : ℚ) = 2 ^ (1074 : ℤ) := by
  obtain ⟨p, hp, hunit⟩ := unit_eq_two_pow
  have hexp : (1074 : ℤ) = (p : ℤ) := by omega
  rw [hunit, hexp, zpow_natCast]
  push_cast
  rfl

/-- Units are positive. -/
theorem unit_cast_pos : (0 : ℚ) < unit := by exact_mod_cast unit_pos

/-- **The value, in units**, is the integer that the float is worked with as. -/
theorem value_mul_unit (x : Binary64) : x.value * unit = x.scaled := by
  have hmag : (x.magnitude : ℚ) = (if x.exponent = 0 then (x.fraction : ℚ) * 2 ^ (-1074 : ℤ)
      else (2 ^ 52 + x.fraction) * 2 ^ ((x.exponent : ℤ) - 1075)) * unit := by
    -- The exponent of a unit takes that of the value up to the last place.
    rw [unit_cast]
    rcases Nat.eq_zero_or_pos x.exponent with hzero | hpos
    · rw [magnitude_of_exponent_eq_zero hzero, if_pos hzero, mul_assoc, ← zpow_add₀ two_ne_zero]
      norm_num
    · have hexp : ((x.exponent : ℤ) - 1075) + 1074 = ((x.exponent - 1 : ℕ) : ℤ) := by omega
      rw [magnitude_of_exponent_pos hpos, if_neg hpos.ne', mul_assoc, ← zpow_add₀ two_ne_zero,
        hexp, zpow_natCast]
      push_cast
      rfl
  unfold value scaled
  cases x.negative
  · simp only [Bool.false_eq_true, if_false, one_mul, Int.cast_natCast, hmag]
  · simp only [if_true, neg_mul, one_mul, Int.cast_neg, Int.cast_natCast, hmag]

/-- Floats have the same value if they have it in units. -/
theorem value_eq_iff_scaled : x.value = y.value ↔ x.scaled = y.scaled := by
  rw [← mul_left_inj' unit_cast_pos.ne', value_mul_unit, value_mul_unit, Int.cast_inj]

/-- The value is the integer. -/
theorem value_eq_int_iff {n : ℤ} : x.value = n ↔ x.scaled = n * (unit : ℤ) := by
  rw [← mul_left_inj' unit_cast_pos.ne', value_mul_unit, ← Int.cast_natCast, ← Int.cast_mul,
    Int.cast_inj]

/-! ### The nearest multiple of a power of two -/

/-- **Rounding misses by half a multiple at most**, and then the multiple is even. -/
theorem roundShift_dist (n s : ℕ) :
    2 * |(2 ^ s * roundShift n s : ℤ) - n| ≤ 2 ^ s ∧
      (2 * |(2 ^ s * roundShift n s : ℤ) - n| = 2 ^ s → Even (roundShift n s)) := by
  have hpos : 0 < 2 ^ s := Nat.two_pow_pos s
  have hdiv : (n : ℤ) = 2 ^ s * (n / 2 ^ s : ℕ) + (n % 2 ^ s : ℕ) := by
    exact_mod_cast (Nat.div_add_mod n (2 ^ s)).symm
  have hlt : n % 2 ^ s < 2 ^ s := Nat.mod_lt n hpos
  have hcast : ((2 ^ s : ℕ) : ℤ) = 2 ^ s := by push_cast; rfl
  have hodd : s ≠ 0 → 2 * (n % 2 ^ s) = 2 ^ s → Even (n / 2 ^ s + n / 2 ^ s % 2) := by
    intro _ _
    exact Nat.even_iff.mpr (by omega)
  simp only [roundShift, Nat.one_shiftLeft]
  -- Only the quotient, the remainder and its bound are used from here on.
  rw [hdiv, ← hcast]
  generalize n / 2 ^ s = q at *
  generalize n % 2 ^ s = r at *
  generalize hP : 2 ^ s = P at *
  have hdown : ((P : ℤ) * q - (P * q + r)) = -r := by ring
  have hup : ((P : ℤ) * (q + 1 : ℕ) - (P * q + r)) = P - r := by push_cast; ring
  split
  · rw [hdown, abs_neg, Nat.abs_cast]
    omega
  · split
    · rw [hup, abs_of_nonneg (by omega)]
      omega
    · split
      · next hs =>
        subst hs
        omega
      · next hs =>
        -- A half, on either side.
        have htie : 2 * r = P := by omega
        refine ⟨?_, fun _ => hodd hs htie⟩
        rcases Nat.mod_two_eq_zero_or_one q with h | h
        · rw [h, Nat.add_zero, hdown, abs_neg, Nat.abs_cast]
          omega
        · rw [h, hup, abs_of_nonneg (by omega)]
          omega

/-- **Rounding beats every other multiple**, or ties with an odd one. -/
theorem roundShift_beats {k : ℤ} (hk : k ≠ roundShift n s) :
    |(2 ^ s * roundShift n s : ℤ) - n| < |2 ^ s * k - n| ∨
      |(2 ^ s * roundShift n s : ℤ) - n| = |2 ^ s * k - n| ∧ Even (roundShift n s) ∧
        ¬ Even k := by
  obtain ⟨hdist, htie⟩ := roundShift_dist n s
  have hpos : (0 : ℤ) < 2 ^ s := by positivity
  generalize roundShift n s = m at *
  -- Another multiple is some steps away, and it is the size of a step that counts.
  obtain ⟨j, rfl⟩ : ∃ j, k = m + j := ⟨k - m, by ring⟩
  have hj : j ≠ 0 := fun h => hk (by rw [h, add_zero])
  have hmove : (2 ^ s * (m + j) - n : ℤ) = (2 ^ s * m - n) + 2 ^ s * j := by ring
  rw [hmove]
  generalize (2 ^ s * m - n : ℤ) = d at *
  generalize (2 ^ s : ℤ) = P at *
  have hfar : P * |j| ≤ |d + P * j| + |d| := by
    calc P * |j| = |(d + P * j) - d| := by rw [add_sub_cancel_left, abs_mul, abs_of_pos hpos]
      _ ≤ |d + P * j| + |d| := abs_sub _ _
  -- Several steps are more than two halves. A single one can tie, and it changes the parity.
  have hone : 1 ≤ |j| := Int.one_le_abs hj
  rcases hone.lt_or_eq with hlarge | hstep
  · left
    nlinarith
  · rw [← hstep, mul_one] at hfar
    rcases (show |d| ≤ |d + P * j| by linarith).lt_or_eq with hlt | heq
    · exact .inl hlt
    · have heven := htie (by linarith)
      refine .inr ⟨heq, heven, fun hk => ?_⟩
      have hjeven : Even j := by simpa [Int.even_add, heven] using hk
      rcases (abs_eq zero_le_one).mp hstep.symm with rfl | rfl
      · exact absurd hjeven (by decide)
      · exact absurd hjeven (by decide)

/-! ### Large floats are multiples -/

/-- **A float from `2 ^ (52 + s)` on is a multiple of `2 ^ s`.** The multiple is the significand or,
for a larger exponent, ends in zeros after it. -/
theorem exists_scaled_eq (hlarge : 2 ^ (52 + s) * (unit : ℤ) ≤ x.scaled) :
    ∃ j, x.scaled = (2 ^ s * (x.significand * 2 ^ j : ℕ) : ℤ) * (unit : ℤ) ∧
      2 ^ 52 ≤ x.significand := by
  obtain ⟨p, hp, hunit⟩ := unit_eq_two_pow
  have hpos : 0 < x.scaled := lt_of_lt_of_le (by rw [hunit]; positivity) hlarge
  -- The value is positive, so the magnitude is the value, and its size settles the exponent.
  have hscaled : x.scaled = x.magnitude := by
    rw [← natAbs_scaled, Int.natAbs_of_nonneg hpos.le]
  have hexp : s + p < x.exponent := by
    rw [hscaled, hunit] at hlarge
    have hlt : 2 ^ (52 + s) * 2 ^ p < 2 ^ 52 * 2 ^ x.exponent :=
      lt_of_le_of_lt (by exact_mod_cast hlarge) x.magnitude_lt
    rw [← Nat.pow_add, ← Nat.pow_add] at hlt
    have := (Nat.pow_lt_pow_iff_right (by decide)).mp hlt
    omega
  obtain ⟨j, hj⟩ := Nat.exists_eq_add_of_lt hexp
  have hsignificand : x.significand = 2 ^ 52 + x.fraction := by
    rw [significand, if_neg (by omega), Nat.one_shiftLeft]
  refine ⟨j, ?_, by omega⟩
  have hpow : x.exponent - 1 = s + j + p := by omega
  rw [hscaled, magnitude_of_exponent_pos (by omega), ← hsignificand, hpow, hunit, Nat.pow_add,
    Nat.pow_add]
  push_cast
  ring

/-- The same for the value. -/
theorem exists_value_eq (hlarge : 2 ^ (52 + s) ≤ x.value) :
    ∃ j, x.value = (2 ^ s * (x.significand * 2 ^ j : ℕ) : ℤ) ∧ 2 ^ 52 ≤ x.significand := by
  have hscaled : 2 ^ (52 + s) * (unit : ℤ) ≤ x.scaled := by
    have hmul := mul_le_mul_of_nonneg_right hlarge unit_cast_pos.le
    rw [value_mul_unit] at hmul
    exact_mod_cast hmul
  obtain ⟨j, hj, hmin⟩ := exists_scaled_eq hscaled
  exact ⟨j, value_eq_int_iff.mpr hj, hmin⟩

/-! ### Rounding an integer -/

/-- Rounding does not go below the quotient. -/
theorem le_roundShift (n s : ℕ) : n / 2 ^ s ≤ roundShift n s := by
  simp only [roundShift, Nat.one_shiftLeft]
  split
  · exact le_rfl
  · split
    · omega
    · split
      · exact le_rfl
      · exact Nat.le_add_right _ _

/-- A long integer is not zero. -/
theorem ne_zero_of_log2 (hn : n.log2 = 52 + s) : n ≠ 0 := by
  rintro rfl
  rw [Nat.log2_zero] at hn
  omega

/-- The significand of a rounded integer. It may have become the next power of two. -/
theorem roundShift_range (hn : n.log2 = 52 + s) :
    2 ^ 52 ≤ roundShift n s ∧ roundShift n s ≤ 2 ^ 53 := by
  have hne := ne_zero_of_log2 hn
  obtain ⟨hlow, hhigh⟩ := (Nat.log2_eq_iff hne).mp hn
  have hpos := Nat.two_pow_pos s
  have hmin : 2 ^ 52 ≤ n / 2 ^ s := (Nat.le_div_iff_mul_le hpos).mpr (by rwa [← Nat.pow_add])
  have hmax : n / 2 ^ s < 2 ^ 53 := by
    refine Nat.div_lt_of_lt_mul (lt_of_lt_of_eq hhigh ?_)
    rw [← Nat.pow_add]
    congr 1
    omega
  have hround := roundShift_le n s
  exact ⟨hmin.trans (le_roundShift n s), by omega⟩

/-- **An integer that is too long for the significand** becomes the multiple that it is rounded
to. -/
theorem scaled_ofInt_of_long (hn : n.log2 = 52 + s) (hs : 0 < s) (hmax : n.log2 < 1023) :
    (ofInt n).scaled = (2 ^ s * roundShift n s : ℤ) * (unit : ℤ) := by
  obtain ⟨p, hp, hunit⟩ := unit_eq_two_pow
  obtain ⟨hqmin, hqmax⟩ := roundShift_range hn
  have hne := ne_zero_of_log2 hn
  -- The word is put together of the exponent and the rounded significand, as for integers that are
  -- exact.
  have hbits : magnitudeBitsOfNat n = (s + p) * 2 ^ 52 + roundShift n s := by
    have hexp : 52 + s + 1022 = s + p := by omega
    have hshift : 52 + s - 52 = s := by omega
    rw [magnitudeBitsOfNat, if_neg hne]
    simp only [hn]
    rw [if_neg (by omega), if_neg (by omega), hexp, hshift, Nat.shiftLeft_eq]
  have hword : (ofInt n).word = (s + p) * 2 ^ 52 + roundShift n s := by
    rw [ofInt, Int.natAbs_natCast, hbits, word_ofMagnitudeBits _ (by omega),
      decide_eq_false (by omega), if_neg Bool.false_ne_true, Nat.zero_add]
  rw [hunit]
  generalize roundShift n s = q at *
  rcases hqmax.lt_or_eq with hlt | rfl
  · have hfields : (ofInt n).word =
        (if false = true then 2 ^ 63 else 0) + ((s + p) * 2 ^ 52 + q) := by
      rw [hword, if_neg Bool.false_ne_true, Nat.zero_add]
    have hscaled := scaled_of_word (by omega) hqmin hlt hfields
    rw [hscaled, if_neg Bool.false_ne_true, Nat.pow_add]
    push_cast
    ring
  · -- The significand carries into the exponent.
    have hfields : (ofInt n).word =
        (if false = true then 2 ^ 63 else 0) + ((s + p + 1) * 2 ^ 52 + 2 ^ 52) := by
      rw [hword, if_neg Bool.false_ne_true]
      omega
    have hscaled := scaled_of_word (by omega) le_rfl (by decide) hfields
    rw [hscaled, if_neg Bool.false_ne_true, Nat.pow_add, Nat.pow_add]
    push_cast
    ring

/-! ### The nearest float -/

/-- The only float nearest to an integer that is one. -/
theorem nearest_iff_of_value_eq {z : Binary64} (hz : z.isFinite = true) (hvalue : z.value = n) :
    Nearest n x ↔ x.isFinite = true ∧ x.value = z.value := by
  -- The float that is the integer has no distance to it, so what is nearest has none either.
  constructor
  · intro h
    have hclosest := h.closest z hz
    rw [hvalue, sub_self, abs_zero] at hclosest
    rw [hvalue]
    exact ⟨h.finite, sub_eq_zero.mp (abs_eq_zero.mp (le_antisymm hclosest (abs_nonneg _)))⟩
  · rintro ⟨hfinite, hx⟩
    have hzero : |x.value - n| = 0 := by rw [hx, hvalue, sub_self, abs_zero]
    refine ⟨hfinite, fun y _ => hzero ▸ abs_nonneg _, fun y _ hne hy => ?_⟩
    rw [hzero] at hy
    exact absurd ((sub_eq_zero.mp (abs_eq_zero.mp hy)).trans (hx.trans hvalue).symm) hne

/-- The distance of a multiple from the integer. -/
theorem abs_value_sub {k : ℤ} (hx : x.value = (2 ^ s * k : ℤ)) :
    |x.value - n| = (|2 ^ s * k - n| : ℤ) := by
  rw [hx]
  push_cast
  rfl

section Rounded

variable {z : Binary64} (hn : n.log2 = 52 + s)
include hn

/-- A float that is the multiple an integer is rounded to is even if the multiple is. -/
theorem even_significand (hz : z.value = (2 ^ s * roundShift n s : ℤ))
    (heven : Even (roundShift n s)) : Even z.significand := by
  obtain ⟨hqmin, hqmax⟩ := roundShift_range hn
  have hpos : (0 : ℤ) < 2 ^ s := by positivity
  have hlarge : 2 ^ (52 + s) ≤ z.value := by
    rw [hz, pow_add, mul_comm]
    exact_mod_cast Nat.mul_le_mul_left (2 ^ s) hqmin
  -- The float has bits enough to be a multiple with its own significand.
  obtain ⟨i, hi, hsig⟩ := exists_value_eq hlarge
  have hmultiple : roundShift n s = z.significand * 2 ^ i := by
    have heq := Int.cast_injective (hz.symm.trans hi)
    exact_mod_cast mul_left_cancel₀ hpos.ne' heq
  rcases i with _ | i
  · rwa [hmultiple, pow_zero, mul_one] at heven
  · -- Beyond its fifty-three bits the multiple is the power of two.
    have hle : z.significand * 2 ≤ z.significand * 2 ^ (i + 1) :=
      Nat.mul_le_mul_left _ (Nat.le_self_pow i.succ_ne_zero 2)
    exact Nat.even_iff.mpr (by omega)

/-- A float before the multiples of this size is farther off than the first of them. -/
theorem roundShift_beats_of_lt (hy : y.value < 2 ^ (52 + s)) :
    ((|2 ^ s * (roundShift n s : ℤ) - n| : ℤ) : ℚ) < |y.value - n| := by
  -- The first multiple with a full significand is one of those that rounding beats.
  have hfirst : |(2 ^ s * roundShift n s : ℤ) - n| ≤ |2 ^ s * (2 ^ 52 : ℤ) - n| := by
    by_cases hk : (2 ^ 52 : ℤ) = roundShift n s
    · rw [← hk]
    · exact (roundShift_beats hk).elim le_of_lt fun h => h.1.le
  have hlow : (2 ^ s * 2 ^ 52 : ℤ) ≤ n := by
    rw [mul_comm, ← pow_add]
    exact_mod_cast ((Nat.log2_eq_iff (ne_zero_of_log2 hn)).mp hn).1
  rw [abs_of_nonpos (sub_nonpos.mpr hlow), neg_sub] at hfirst
  have hbelow : y.value < (2 ^ s * 2 ^ 52 : ℤ) := by
    rw [pow_add, mul_comm] at hy
    exact_mod_cast hy
  have hyn : y.value < n := hbelow.trans_le (by exact_mod_cast hlow)
  calc ((|2 ^ s * (roundShift n s : ℤ) - n| : ℤ) : ℚ)
      ≤ (n - (2 ^ s * 2 ^ 52 : ℤ) : ℤ) := Int.cast_le.mpr hfirst
    _ = n - (2 ^ s * 2 ^ 52 : ℤ) := by push_cast; rfl
    _ < n - y.value := sub_lt_sub_left hbelow _
    _ = |y.value - n| := by rw [abs_of_neg (sub_neg.mpr hyn), neg_sub]

/-- A float whose value is the multiple that an integer is rounded to beats every other float. -/
theorem beats_of_value_eq (hz : z.value = (2 ^ s * roundShift n s : ℤ)) (hne : y.value ≠ z.value) :
    |z.value - n| < |y.value - n| ∨
      |z.value - n| = |y.value - n| ∧ Even z.significand ∧ ¬ Even y.significand := by
  -- Either the float is below all multiples of this size, or it is one of them.
  rw [abs_value_sub hz]
  rcases lt_or_ge y.value (2 ^ (52 + s)) with hsmall | hlarge
  · exact .inl (roundShift_beats_of_lt hn hsmall)
  · obtain ⟨j, hj, -⟩ := exists_value_eq hlarge
    have hk : ((y.significand * 2 ^ j : ℕ) : ℤ) ≠ roundShift n s := fun h =>
      hne (hj.trans (h ▸ hz.symm))
    rw [abs_value_sub hj]
    rcases roundShift_beats hk with hlt | ⟨heq, heven, hodd⟩
    · exact .inl (by exact_mod_cast hlt)
    · refine .inr ⟨by exact_mod_cast heq, even_significand hn hz heven, fun h => hodd ?_⟩
      exact_mod_cast h.mul_right (2 ^ j)

end Rounded

/-- **The float nearest to an integer.** `ofInt` is nearest, and what is nearest has its value. -/
theorem nearest_iff (hn : n.log2 < 1023) :
    Nearest n x ↔ x.isFinite = true ∧ x.value = (ofInt n).value := by
  have hfinite : (ofInt n).isFinite = true := isFinite_ofInt (by rwa [Int.natAbs_natCast])
  -- A short integer is exact.
  by_cases hshort : n.log2 ≤ 52
  · have hscaled := scaled_ofInt_of_short (n := n) (by rwa [Int.natAbs_natCast])
      (fun h => absurd h (by rw [Int.natAbs_natCast]; omega))
    exact nearest_iff_of_value_eq hfinite (value_eq_int_iff.mpr hscaled)
  · obtain ⟨s, hs⟩ := Nat.exists_eq_add_of_lt (Nat.not_le.mp hshort)
    have hlong : n.log2 = 52 + (s + 1) := hs
    have hvalue := value_eq_int_iff.mpr (scaled_ofInt_of_long hlong s.succ_pos hn)
    -- A long one is rounded to a multiple, which beats all other floats.
    constructor
    · intro h
      refine ⟨h.finite, ?_⟩
      by_contra hne
      rcases beats_of_value_eq hlong hvalue hne with hlt | ⟨heq, -, hodd⟩
      · exact absurd (h.closest _ hfinite) (not_le.mpr hlt)
      · exact hodd (h.even _ hfinite (Ne.symm hne) heq)
    · rintro ⟨hx, hsame⟩
      have hbeats {y : Binary64} (hne : y.value ≠ x.value) :=
        beats_of_value_eq hlong (hsame.trans hvalue) hne
      refine ⟨hx, fun y _ => ?_, fun y _ hne htie => ?_⟩
      · by_cases hne : y.value = x.value
        · rw [hne]
        · rcases hbeats hne with hlt | ⟨heq, -⟩
          · exact hlt.le
          · exact heq.le
      · rcases hbeats hne with hlt | ⟨-, heven, -⟩
        · exact absurd htie.symm hlt.ne
        · exact heven

end Binary64

end ScriptHost
