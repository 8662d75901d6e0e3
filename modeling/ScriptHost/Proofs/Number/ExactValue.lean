import Mathlib.Tactic.Ring
import ScriptHost.Number.Binary64

/-!
# The exact value of a float

A float is settled by its exact value: the value gives back the exponent and the fraction, because
floats with a larger exponent are larger (`magnitude_lt_of_exponent_lt`). Only the two zeros share
one (`eq_of_scaled_eq`). A float is the sixty-four bit integer `i` exactly if its value is `i`
(`toInt64?_eq_some_iff`). An integer has to be rounded to become a float, but not if it is one: a
float has fifty-three bits of significand only, so an integer that is one ends in zeros where it is
longer (`dvd_of_magnitude_eq`), and the nearest float of such an integer is exact
(`scaled_ofInt_of_scaled_eq`).
-/

set_option autoImplicit false

namespace ScriptHost

namespace Binary64

variable {x y : Binary64}

theorem unit_pos : 0 < unit := by decide

/-- A unit is a power of two. -/
theorem unit_eq_two_pow : ∃ p, p = 1074 ∧ unit = 2 ^ p := by
  unfold unit
  generalize 1074 = p
  exact ⟨p, rfl, Nat.one_shiftLeft p⟩

/-! ### A word and its fields -/

/-- A fraction has fifty-two bits. -/
theorem fraction_lt (x : Binary64) : x.fraction < 2 ^ 52 := by
  rw [fraction, Nat.one_shiftLeft]
  exact Nat.mod_lt _ (Nat.two_pow_pos _)

/-- A word has sixty-four bits. -/
theorem word_lt (x : Binary64) : x.word < 2 ^ 64 := x.bits.toNat_lt

/-- The fields make up the word. -/
theorem word_eq_fields (x : Binary64) :
    x.word = (if x.negative then 2 ^ 63 else 0) + x.exponent * 2 ^ 52 + x.fraction := by
  have hlt := x.word_lt
  simp only [negative, exponent, fraction, Nat.one_shiftLeft]
  -- The sign is the highest bit, so it is set exactly in the upper half of the words.
  by_cases hsign : 2 ^ 63 ≤ x.word
  · simp only [hsign, decide_true, if_true]
    omega
  · simp only [hsign, decide_false, Bool.false_eq_true, if_false]
    omega

/-- Words with the same fields are the same. -/
theorem eq_of_fields (hsign : x.negative = y.negative) (hexp : x.exponent = y.exponent)
    (hfrac : x.fraction = y.fraction) : x = y := by
  have hword : x.word = y.word := by
    rw [word_eq_fields x, word_eq_fields y, hsign, hexp, hfrac]
  cases x
  cases y
  exact congrArg mk (UInt64.toNat_inj.mp hword)

/-- A significand has fifty-three bits. -/
theorem significand_lt (x : Binary64) : x.significand < 2 ^ 53 := by
  have hfrac := x.fraction_lt
  unfold significand
  split
  · omega
  · rw [Nat.one_shiftLeft]
    omega

/-! ### The value settles the fields -/

/-- Without exponent bits the magnitude is the fraction. -/
theorem magnitude_of_exponent_eq_zero (h : x.exponent = 0) : x.magnitude = x.fraction := by
  rw [magnitude, significand, if_pos h, lastPlace, h]
  exact Nat.mul_one _

/-- With them the fraction has a leading bit, and the exponent counts places. -/
theorem magnitude_of_exponent_pos (h : 0 < x.exponent) :
    x.magnitude = (2 ^ 52 + x.fraction) * 2 ^ (x.exponent - 1) := by
  have hne : x.exponent ≠ 0 := by omega
  rw [magnitude, significand, if_neg hne, lastPlace, Nat.one_shiftLeft, Nat.one_shiftLeft]

/-- All floats of one exponent are below the first one of the next. -/
theorem magnitude_lt (x : Binary64) : x.magnitude < 2 ^ 52 * 2 ^ x.exponent := by
  have hfrac := x.fraction_lt
  rcases Nat.eq_zero_or_pos x.exponent with hzero | hpos
  · rw [magnitude_of_exponent_eq_zero hzero, hzero]
    omega
  · have hsplit : 2 ^ 52 * 2 ^ x.exponent = (2 ^ 52 + 2 ^ 52) * 2 ^ (x.exponent - 1) := by
      obtain ⟨e, he⟩ := Nat.exists_eq_add_of_lt hpos
      rw [he, Nat.zero_add, Nat.add_sub_cancel, Nat.pow_succ]
      ring
    rw [magnitude_of_exponent_pos hpos, hsplit]
    exact Nat.mul_lt_mul_of_pos_right (by omega) (Nat.two_pow_pos _)

/-- The first float of an exponent. -/
theorem le_magnitude (h : 0 < x.exponent) : 2 ^ 52 * 2 ^ (x.exponent - 1) ≤ x.magnitude := by
  rw [magnitude_of_exponent_pos h]
  exact Nat.mul_le_mul_right _ (Nat.le_add_right _ _)

/-- A larger exponent is a larger float. -/
theorem magnitude_lt_of_exponent_lt (h : x.exponent < y.exponent) : x.magnitude < y.magnitude := by
  have hpow : 2 ^ x.exponent ≤ 2 ^ (y.exponent - 1) := Nat.pow_le_pow_right Nat.two_pos (by omega)
  calc x.magnitude < 2 ^ 52 * 2 ^ x.exponent := x.magnitude_lt
    _ ≤ 2 ^ 52 * 2 ^ (y.exponent - 1) := Nat.mul_le_mul_left _ hpow
    _ ≤ y.magnitude := le_magnitude (Nat.zero_lt_of_lt h)

/-- The magnitude settles the exponent and the fraction. -/
theorem fields_of_magnitude_eq (h : x.magnitude = y.magnitude) :
    x.exponent = y.exponent ∧ x.fraction = y.fraction := by
  have hexp : x.exponent = y.exponent := by
    rcases Nat.lt_trichotomy x.exponent y.exponent with hlt | heq | hgt
    · exact absurd h (magnitude_lt_of_exponent_lt hlt).ne
    · exact heq
    · exact absurd h.symm (magnitude_lt_of_exponent_lt hgt).ne
  refine ⟨hexp, ?_⟩
  rcases Nat.eq_zero_or_pos x.exponent with hzero | hpos
  · rwa [magnitude_of_exponent_eq_zero hzero,
      magnitude_of_exponent_eq_zero (hexp.symm.trans hzero)] at h
  · rw [magnitude_of_exponent_pos hpos, magnitude_of_exponent_pos (hexp ▸ hpos), hexp] at h
    exact Nat.add_left_cancel (Nat.eq_of_mul_eq_mul_right (Nat.two_pow_pos _) h)

/-- The magnitude is the value without its sign. -/
theorem natAbs_scaled (x : Binary64) : x.scaled.natAbs = x.magnitude := by
  unfold scaled
  split
  · rw [Int.natAbs_neg, Int.natAbs_natCast]
  · rw [Int.natAbs_natCast]

/-- **A float other than zero is settled by its value.** -/
theorem eq_of_scaled_eq (h : x.scaled = y.scaled) (hzero : x.scaled ≠ 0) : x = y := by
  have hmag : x.magnitude = y.magnitude := by rw [← natAbs_scaled, h, natAbs_scaled]
  obtain ⟨hexp, hfrac⟩ := fields_of_magnitude_eq hmag
  refine eq_of_fields ?_ hexp hfrac
  -- With different signs, both would be zero.
  unfold scaled at h hzero
  cases hx : x.negative <;> cases hy : y.negative <;> simp [hx, hy] at h hzero ⊢ <;> omega

/-! ### Floats that are integers -/

/-- What is no finite float is larger than sixty-four bit integers. -/
theorem lt_magnitude_of_not_isFinite (h : x.isFinite = false) : 2 ^ 63 * unit < x.magnitude := by
  obtain ⟨p, hp, hunit⟩ := unit_eq_two_pow
  have hexp : x.exponent = 2047 := by simpa [isFinite] using h
  have hlarger : 2 ^ (63 + p) < 2 ^ (52 + (x.exponent - 1)) :=
    Nat.pow_lt_pow_right (by decide) (by omega)
  rw [Nat.pow_add, Nat.pow_add, ← hunit] at hlarger
  exact Nat.lt_of_lt_of_le hlarger (le_magnitude (by omega))

/-- **The integer that a float is** has the float's value. -/
theorem toInt?_eq_some_iff {n : Int} :
    x.toInt? = some n ↔ x.isFinite = true ∧ x.scaled = n * (unit : Int) := by
  have hunit : (unit : Int) ≠ 0 := by exact_mod_cast unit_pos.ne'
  unfold toInt?
  constructor
  · intro h
    split at h
    · next hintegral =>
      simp only [isIntegral, Bool.and_eq_true, beq_iff_eq] at hintegral
      have hdiv := Int.ediv_mul_cancel (Int.dvd_of_emod_eq_zero hintegral.2)
      exact ⟨hintegral.1, by rw [← Option.some.inj h, hdiv]⟩
    · cases h
  · rintro ⟨hfinite, h⟩
    have hintegral : x.isIntegral = true := by
      rw [isIntegral, hfinite, h, Int.mul_emod_left]
      rfl
    rw [if_pos hintegral, h, Int.mul_ediv_cancel _ hunit]

/-- **The sixty-four bit integer that a float is** has the float's value: what is no finite float is
out of their range. -/
theorem toInt64?_eq_some_iff {i : Int64} :
    x.toInt64? = some i ↔ x.scaled = i.toInt * (unit : Int) := by
  have hmin := i.le_toInt
  have hmax := i.toInt_lt
  constructor
  · intro h
    unfold toInt64? at h
    cases hn : x.toInt? with
    | none =>
      rw [hn] at h
      cases h
    | some n =>
      simp only [hn] at h
      split at h
      · next hrange =>
        rw [← Option.some.inj h, Int64.toInt_ofInt_of_le hrange.1 hrange.2]
        exact (toInt?_eq_some_iff.mp hn).2
      · cases h
  · intro h
    -- An integer in range is too small for a float that is not finite.
    have hfinite : x.isFinite = true := by
      by_contra hinf
      have hlarge := lt_magnitude_of_not_isFinite (Bool.not_eq_true _ ▸ hinf)
      rw [← natAbs_scaled, h, Int.natAbs_mul, Int.natAbs_natCast] at hlarge
      have hi : i.toInt.natAbs ≤ 2 ^ 63 := by omega
      exact absurd hlarge (Nat.not_lt.mpr (Nat.mul_le_mul_right _ hi))
    simp only [toInt64?, toInt?_eq_some_iff.mpr ⟨hfinite, h⟩]
    rw [if_pos ⟨hmin, hmax⟩, Int64.ofInt_toInt]

/-! ### Integers as floats -/

/-- A word that is put together of a sign, an exponent and a significand with its leading bit, which
counts one in the exponent. -/
theorem scaled_of_word {sign : Bool} {e q : Nat} (he : e < 2046) (hmin : 2 ^ 52 ≤ q)
    (hmax : q < 2 ^ 53) (hword : x.word = (if sign then 2 ^ 63 else 0) + (e * 2 ^ 52 + q)) :
    x.scaled = (if sign then -1 else 1) * (q * 2 ^ e : Nat) := by
  -- The leading bit of the significand carries into the exponent.
  have hexp : x.exponent = e + 1 := by
    rw [exponent, hword, Nat.one_shiftLeft, Nat.one_shiftLeft]
    split <;> omega
  have hfrac : x.fraction = q - 2 ^ 52 := by
    rw [fraction, hword, Nat.one_shiftLeft]
    split <;> omega
  have hsign : x.negative = sign := by
    rw [negative, hword, Nat.one_shiftLeft]
    cases sign
    · exact decide_eq_false (by simp only [Bool.false_eq_true, if_false]; omega)
    · exact decide_eq_true (by simp only [if_true]; omega)
  have hmag : x.magnitude = q * 2 ^ e := by
    rw [magnitude_of_exponent_pos (by omega), hfrac, hexp, Nat.add_sub_cancel,
      Nat.add_sub_cancel' hmin]
  rw [scaled, hsign, hmag]
  cases sign
  · rw [if_neg Bool.false_ne_true, if_neg Bool.false_ne_true, Int.one_mul]
  · rw [if_pos rfl, if_pos rfl, Int.neg_one_mul]

/-- The sign bit and the others do not overlap. -/
theorem word_ofMagnitudeBits (sign : Bool) {bits : Nat} (h : bits < 2 ^ 63) :
    (ofMagnitudeBits sign bits).word = (if sign then 2 ^ 63 else 0) + bits := by
  unfold ofMagnitudeBits word
  rw [Nat.one_shiftLeft]
  cases sign
  · rw [if_neg Bool.false_ne_true, if_neg Bool.false_ne_true, Nat.zero_add]
    exact UInt64.toNat_ofNat_of_lt' (Nat.lt_trans h (by decide))
  · rw [if_pos rfl, if_pos rfl]
    exact UInt64.toNat_ofNat_of_lt' (show 2 ^ 63 + bits < 2 ^ 64 by omega)

/-- Rounding does not go beyond the next integer. -/
theorem roundShift_le (n s : Nat) : roundShift n s ≤ n / 2 ^ s + 1 := by
  simp only [roundShift, Nat.one_shiftLeft]
  split
  · omega
  · split
    · omega
    · split
      · omega
      · have := Nat.mod_lt (n / 2 ^ s) Nat.two_pos
        omega

/-- Rounding leaves multiples as they are. -/
theorem roundShift_of_dvd {n s : Nat} (h : 2 ^ s ∣ n) : roundShift n s = n / 2 ^ s := by
  have hmod : n % 2 ^ s = 0 := Nat.mod_eq_zero_of_dvd h
  simp only [roundShift, Nat.one_shiftLeft, hmod, Nat.mul_zero, Nat.two_pow_pos, if_true]

variable {m : Nat}

/-- The significand of an integer that is written with fifty-three bits: it is scaled to have its
leading bit in front. -/
theorem exists_magnitudeBits_of_short (hm : 0 < m) (hmax : m.log2 < 1023)
    (hdvd : 52 < m.log2 → 2 ^ (m.log2 - 52) ∣ m) :
    ∃ e q, magnitudeBitsOfNat m = e * 2 ^ 52 + q ∧ e < 2046 ∧ 2 ^ 52 ≤ q ∧ q < 2 ^ 53 ∧
      q * 2 ^ e = m * unit := by
  obtain ⟨hlow, hhigh⟩ := (Nat.log2_eq_iff hm.ne').mp (rfl : m.log2 = m.log2)
  obtain ⟨p, hp, hunit⟩ := unit_eq_two_pow
  obtain ⟨d, hd⟩ : ∃ d, d = 1022 := ⟨_, rfl⟩
  have hsplit : 2 ^ p = 2 ^ 52 * 2 ^ d := by rw [← Nat.pow_add, hp, hd]
  unfold magnitudeBitsOfNat
  rw [if_neg hm.ne']
  -- The length of the integer is all that is used of its logarithm.
  generalize m.log2 = e at *
  simp only
  rw [if_neg (by omega), ← hd]
  by_cases he : e ≤ 52
  -- A short integer is scaled up, and nothing is lost.
  · obtain ⟨k, hk⟩ := Nat.exists_eq_add_of_le he
    have hsub : 52 - e = k := by omega
    have hpow : 2 ^ 52 = 2 ^ e * 2 ^ k := by rw [hk, Nat.pow_add]
    have hpow' : 2 ^ 53 = 2 ^ (e + 1) * 2 ^ k := by
      rw [← Nat.pow_add]
      congr 1
      omega
    refine ⟨e + d, m * 2 ^ k, ?_, by omega, ?_, ?_, ?_⟩
    · rw [if_pos he, hsub, Nat.shiftLeft_eq, Nat.shiftLeft_eq]
    · rw [hpow]
      exact Nat.mul_le_mul_right _ hlow
    · rw [hpow']
      exact Nat.mul_lt_mul_of_pos_right hhigh (Nat.two_pow_pos _)
    · rw [hunit, hsplit, hpow, Nat.pow_add]
      ring
  -- A long one ends in zeros, which are what is cut off.
  · obtain ⟨k, hk⟩ := Nat.exists_eq_add_of_lt (Nat.not_le.mp he)
    have hsub : e - 52 = k + 1 := by omega
    rw [hsub] at hdvd
    obtain ⟨q, hq⟩ := hdvd (Nat.not_le.mp he)
    have hpow : 2 ^ e = 2 ^ 52 * 2 ^ (k + 1) := by
      rw [← Nat.pow_add]
      congr 1
    have hpos := Nat.two_pow_pos (k + 1)
    have hdiv : m / 2 ^ (k + 1) = q := by rw [hq, Nat.mul_div_cancel_left _ hpos]
    refine ⟨e + d, q, ?_, by omega, ?_, ?_, ?_⟩
    · rw [if_neg he, hsub, roundShift_of_dvd ⟨q, hq⟩, hdiv, Nat.shiftLeft_eq]
    · rw [hpow, hq, Nat.mul_comm] at hlow
      exact Nat.le_of_mul_le_mul_left hlow hpos
    · rw [Nat.pow_succ, hpow, hq, Nat.mul_comm (2 ^ (k + 1)), Nat.mul_right_comm] at hhigh
      exact Nat.lt_of_mul_lt_mul_right hhigh
    · rw [hunit, hsplit, Nat.pow_add, hpow, hq]
      ring

/-- **Rounding is exact for what is written with fifty-three bits.** -/
theorem scaled_ofInt_of_short {n : Int} (hmax : n.natAbs.log2 < 1023)
    (hdvd : 52 < n.natAbs.log2 → 2 ^ (n.natAbs.log2 - 52) ∣ n.natAbs) :
    (ofInt n).scaled = n * (unit : Int) := by
  rcases eq_or_ne n 0 with rfl | hn
  -- Zero has a word of its own.
  · decide
  have hpos : 0 < n.natAbs := Int.natAbs_pos.mpr hn
  obtain ⟨e, q, hbits, he, hqmin, hqmax, hq⟩ := exists_magnitudeBits_of_short hpos hmax hdvd
  have hlt : e * 2 ^ 52 + q < 2 ^ 63 := by omega
  have hword := word_ofMagnitudeBits (decide (n < 0)) hlt
  rw [ofInt, hbits, scaled_of_word he hqmin hqmax hword, hq, Nat.cast_mul]
  -- The sign of the word is the sign of the integer.
  by_cases hneg : n < 0
  · rw [decide_eq_true hneg, if_pos rfl]
    rw [Int.ofNat_natAbs_of_nonpos hneg.le]
    ring
  · rw [decide_eq_false hneg, if_neg Bool.false_ne_true,
      Int.natAbs_of_nonneg (Int.not_lt.mp hneg)]
    ring

/-- The last place of a large integer that is a float. -/
theorem dvd_of_magnitude_eq (h : x.magnitude = m * unit) (hlog : 52 < m.log2) :
    2 ^ (m.log2 - 52) ∣ m := by
  have hm : m ≠ 0 := by
    rintro rfl
    exact absurd hlog (by decide)
  have hlow : 2 ^ m.log2 ≤ m := ((Nat.log2_eq_iff hm).mp rfl).1
  generalize m.log2 = e at *
  obtain ⟨u, -, hunit⟩ := unit_eq_two_pow
  have hs := x.significand_lt
  rw [magnitude, lastPlace, hunit, Nat.one_shiftLeft] at h
  generalize x.significand = s at *
  generalize x.exponent - 1 = p at *
  have hplace : u + (e - 52) ≤ p := by
    -- With a smaller last place the significand would be too short.
    by_contra hsmall
    have hpow : 2 ^ p ≤ 2 ^ (u + (e - 53)) := Nat.pow_le_pow_right Nat.two_pos (by omega)
    have hlt : s * 2 ^ p < 2 ^ 53 * 2 ^ (u + (e - 53)) :=
      Nat.mul_lt_mul_of_lt_of_le hs hpow (Nat.two_pow_pos _)
    have hsplit : 2 ^ 53 * 2 ^ (u + (e - 53)) = 2 ^ e * 2 ^ u := by
      have hexps : 53 + (u + (e - 53)) = e + u := by omega
      rw [← Nat.pow_add, hexps, Nat.pow_add]
    have hle : 2 ^ e * 2 ^ u ≤ m * 2 ^ u := Nat.mul_le_mul_right _ hlow
    rw [hsplit, h] at hlt
    exact absurd hle (Nat.not_le.mpr hlt)
  obtain ⟨j, rfl⟩ := Nat.exists_eq_add_of_le hplace
  refine ⟨s * 2 ^ j, Nat.eq_of_mul_eq_mul_right (Nat.two_pow_pos u) ?_⟩
  rw [← h, Nat.pow_add, Nat.pow_add]
  ring

/-- **An integer that is a float exactly is rounded to that float's value.** -/
theorem scaled_ofInt_of_scaled_eq {n : Int} (hn : n.natAbs.log2 < 1023)
    (h : x.scaled = n * (unit : Int)) : (ofInt n).scaled = x.scaled := by
  have hmag : x.magnitude = n.natAbs * unit := by
    rw [← natAbs_scaled, h, Int.natAbs_mul, Int.natAbs_natCast]
  rw [scaled_ofInt_of_short hn (dvd_of_magnitude_eq hmag), h]

/-- The word of an integer in range stays below the words that are not finite. -/
theorem magnitudeBitsOfNat_lt (hm : m.log2 < 1023) : magnitudeBitsOfNat m < 2047 * 2 ^ 52 := by
  unfold magnitudeBitsOfNat
  split
  · decide
  · next hne =>
    obtain ⟨-, hhigh⟩ := (Nat.log2_eq_iff hne).mp (rfl : m.log2 = m.log2)
    generalize m.log2 = e at *
    simp only
    rw [if_neg (by omega)]
    split
    -- A short integer is scaled to fifty-three bits.
    · next he =>
      have hlt : m * 2 ^ (52 - e) < 2 ^ (e + 1) * 2 ^ (52 - e) :=
        Nat.mul_lt_mul_of_pos_right hhigh (Nat.two_pow_pos _)
      have hpow : 2 ^ (e + 1) * 2 ^ (52 - e) = 2 ^ 53 := by
        rw [← Nat.pow_add]
        congr 1
        omega
      rw [Nat.shiftLeft_eq, Nat.shiftLeft_eq]
      omega
    · next he =>
      -- A long one is rounded, and at worst rounded up to the next power of two.
      have hround := roundShift_le m (e - 52)
      have hpow : 2 ^ (e + 1) = 2 ^ (e - 52) * 2 ^ 53 := by
        rw [← Nat.pow_add]
        congr 1
        omega
      have hdiv : m / 2 ^ (e - 52) < 2 ^ 53 := Nat.div_lt_of_lt_mul (hpow ▸ hhigh)
      rw [Nat.shiftLeft_eq]
      omega

/-- An integer in the range of floats becomes a finite one. -/
theorem isFinite_ofInt {n : Int} (hn : n.natAbs.log2 < 1023) : (ofInt n).isFinite = true := by
  have hbits := magnitudeBitsOfNat_lt hn
  have hlt : magnitudeBitsOfNat n.natAbs < 2 ^ 63 := Nat.lt_trans hbits (by decide)
  have hword := word_ofMagnitudeBits (decide (n < 0)) hlt
  refine bne_iff_ne.mpr ?_
  rw [ofInt, exponent, hword, Nat.one_shiftLeft, Nat.one_shiftLeft]
  split <;> omega

/-- Finite floats are numbers. -/
theorem isNaN_of_isFinite (h : x.isFinite = true) : x.isNaN = false := by
  rw [isNaN, beq_false_of_ne (bne_iff_ne.mp h), Bool.false_and]

/-- **An integer that is a float exactly is that float's integer after rounding.** -/
theorem toInt?_ofInt {n : Int} (hn : n.natAbs.log2 < 1023) (h : x.toInt? = some n) :
    (ofInt n).toInt? = some n := by
  have hscaled := (toInt?_eq_some_iff.mp h).2
  exact toInt?_eq_some_iff.mpr ⟨isFinite_ofInt hn, (scaled_ofInt_of_scaled_eq hn hscaled).trans
    hscaled⟩

end Binary64

/-- Integers of sixty-four bits are in the range of floats. -/
theorem log2_natAbs_lt {n : Int} (h : n.natAbs ≤ 2 ^ 64) : n.natAbs.log2 < 1023 := by
  rcases Nat.eq_zero_or_pos n.natAbs with hzero | hpos
  · rw [hzero]
    decide
  · have hlog : n.natAbs.log2 < 65 := (Nat.log2_lt hpos.ne').mpr (by omega)
    omega

end ScriptHost
