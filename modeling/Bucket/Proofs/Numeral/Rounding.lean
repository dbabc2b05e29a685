/-
# Decimals and the reals they round to

A decimal stands for a ratio of natural numbers, and the real it rounds to depends on that ratio
alone: zeros at the end of its digits may be moved into its exponent (`Decimal.toReal_mul_pow`). A real
with all its digits rounds to itself (`Decimal.toReal_exact`), so the decimal that is written for a
positive real always reads back as that real (`Decimal.toReal_shortest_of_pos`).
-/
import Bucket.Numeral.Decimal
import Mathlib.Algebra.Group.Nat.Defs
import Mathlib.Logic.Basic

namespace Bucket.Numeral

/-! ## Ratios -/

namespace Binary64

/-- Rounding depends on the ratio alone. -/
theorem roundHalfEven_mul_right (num den : Nat) {c : Nat} (hc : 0 < c) :
    roundHalfEven (num * c) (den * c) = roundHalfEven num den := by
  have hlt : 2 * (num % den * c) < den * c ↔ 2 * (num % den) < den := by
    rw [← Nat.mul_assoc, Nat.mul_lt_mul_right hc]
  have hgt : den * c < 2 * (num % den * c) ↔ den < 2 * (num % den) := by
    rw [← Nat.mul_assoc, Nat.mul_lt_mul_right hc]
  simp only [roundHalfEven, Nat.mul_div_mul_right num den hc, Nat.mul_mod_mul_right, hlt, hgt]

/-- A whole number is not changed by rounding. -/
theorem roundHalfEven_mul_self (q : Nat) {den : Nat} (hden : 0 < den) :
    roundHalfEven (q * den) den = q := by
  simp [roundHalfEven, Nat.mul_div_cancel _ hden, hden]

/-- The real nearest to a ratio depends on the ratio alone. -/
theorem ofRatio_mul_right (num den : Nat) {c : Nat} (hc : 0 < c) :
    ofRatio (num * c) (den * c) = ofRatio num den := by
  have hunits : num * c * unitsInOne = num * unitsInOne * c := Nat.mul_right_comm _ _ _
  have hpow : ∀ k, den * c * k = den * k * c := fun k => Nat.mul_right_comm _ _ _
  simp only [ofRatio, hunits, hpow, Nat.mul_div_mul_right _ _ hc, roundHalfEven_mul_right _ _ hc]

end Binary64

namespace Decimal

/-! ## Digits and exponent -/

/-- A zero at the end takes one digit. -/
theorem width_mul_ten {n : Nat} (hn : 0 < n) : width (n * 10) = width n + 1 := by
  have h := Nat.toDigits_append_toDigits (b := 10) (n := n) (d := 0) (by decide) hn (by decide)
  rw [width, width, Nat.mul_comm n 10, ← Nat.add_zero (10 * n), ← h, List.length_append]
  rfl

/-- Zeros at the end take one digit each. -/
theorem width_mul_pow {n : Nat} (hn : 0 < n) (k : Nat) : width (n * 10 ^ k) = width n + k := by
  induction k with
  | zero => simp
  | succ k ih =>
      rw [Nat.pow_succ, ← Nat.mul_assoc, width_mul_ten (Nat.mul_pos hn (Nat.pow_pos (by decide))), ih]
      omega

/-- Zeros at the end of the digits may be moved into the exponent. -/
theorem toReal_mul_pow {n : Nat} (hn : 0 < n) (k : Nat) (e : Int) :
    toReal ⟨n * 10 ^ k, e - k⟩ = toReal ⟨n, e⟩ := by
  have hpos : 0 < n * 10 ^ k := Nat.mul_pos hn (Nat.pow_pos (by decide))
  have horder : order ⟨n * 10 ^ k, e - k⟩ = order ⟨n, e⟩ := by
    simp only [order, width_mul_pow hn]
    omega
  have hten : ∀ j : Nat, 0 < 10 ^ j := fun j => Nat.pow_pos (by decide)
  simp only [toReal, horder, Nat.ne_of_gt hpos, Nat.ne_of_gt hn, if_false, Nat.pow_eq]
  -- Only where neither order decides is the ratio looked at.
  refine if_congr Iff.rfl rfl (if_congr Iff.rfl rfl ?_)
  by_cases hk : 0 ≤ e - k
  · have he : 0 ≤ e := by omega
    rw [if_pos hk, if_pos he, Nat.mul_assoc, ← Nat.pow_add,
      show k + (e - k).toNat = e.toNat by omega]
  · rw [if_neg hk]
    by_cases he : 0 ≤ e
    · rw [if_pos he, ← Binary64.ofRatio_mul_right _ 1 (hten (-(e - k)).toNat), Nat.one_mul,
        Nat.mul_assoc, ← Nat.pow_add, show e.toNat + (-(e - k)).toNat = k by omega]
    · rw [if_neg he, ← Binary64.ofRatio_mul_right n _ (hten k), ← Nat.pow_add,
        show (-e).toNat + k = (-(e - k)).toNat by omega]

/-! ## All digits -/

section Exact

variable {x : Binary64}

theorem unitsInOne_pos : 0 < Binary64.unitsInOne := by decide +kernel

theorem five_pow_pos : 0 < Nat.pow 5 1074 := by decide +kernel

/-- Ten to the power 1074 is what turns a count of units into all digits. -/
theorem ten_pow_eq : Nat.pow 10 1074 = Binary64.unitsInOne * Nat.pow 5 1074 := by decide +kernel

/-- A positive real has units. -/
theorem units_pos (hpos : 0 < x.size) : 0 < x.units := by
  unfold Binary64.units
  split
  · exact hpos
  · exact Nat.mul_pos (Nat.add_pos_left (by decide) _) (Nat.pow_pos (by decide))

/-- A finite real has less than 2 to the power 2098 units. -/
theorem units_lt (hfinite : x.isFinite) : x.units < 2 ^ 2098 := by
  have hsize : x.size < 2047 * Binary64.fractionSize := of_decide_eq_true hfinite
  have hfraction : 0 < Binary64.fractionSize := by decide
  have hsmall : Binary64.fractionSize < 2 ^ 2098 := by decide +kernel
  unfold Binary64.units
  split
  · omega
  · have hexponent : x.size / Binary64.fractionSize < 2047 :=
      Nat.div_lt_of_lt_mul (by rwa [Nat.mul_comm] at hsize)
    have hmod := Nat.mod_lt x.size hfraction
    calc (Binary64.fractionSize + x.size % Binary64.fractionSize) *
          2 ^ (x.size / Binary64.fractionSize - 1)
        ≤ (2 * Binary64.fractionSize - 1) * 2 ^ 2045 :=
          Nat.mul_le_mul (by omega) (Nat.pow_le_pow_right (by decide) (by omega))
      _ < 2 ^ 2098 := by decide +kernel

/-- The decimal with all digits of a real has an order at which its ratio is taken. -/
theorem order_exact (hpos : 0 < x.size) (hfinite : x.isFinite) :
    -324 < (exact x).order ∧ (exact x).order < 310 := by
  have hwidth : ∀ k, 0 < k → (width (x.units * Nat.pow 5 1074) ≤ k ↔
      x.units * Nat.pow 5 1074 < 10 ^ k) := fun k hk =>
    Nat.length_toDigits_le_iff (by decide) hk
  -- There are between 751 and 1383 digits, of which 1074 stand behind the point.
  have hlower : ¬ width (x.units * Nat.pow 5 1074) ≤ 750 := by
    rw [hwidth 750 (by decide), Nat.not_lt]
    calc 10 ^ 750 ≤ Nat.pow 5 1074 := by decide +kernel
      _ ≤ x.units * Nat.pow 5 1074 := Nat.le_mul_of_pos_left _ (units_pos hpos)
  have hupper : width (x.units * Nat.pow 5 1074) ≤ 1383 := by
    rw [hwidth 1383 (by decide)]
    calc x.units * Nat.pow 5 1074 < 2 ^ 2098 * Nat.pow 5 1074 :=
          Nat.mul_lt_mul_of_pos_right (units_lt hfinite) five_pow_pos
      _ ≤ 10 ^ 1383 := by decide +kernel
  have horder : (exact x).order = width (x.units * Nat.pow 5 1074) + (-1074) := rfl
  omega

/-- Counting the units of a real in as many of its leading bits as it has gives its size back. -/
theorem ofRatio_units (hpos : 0 < x.size) (hfinite : x.isFinite) {d : Nat} (hd : 0 < d) :
    Binary64.ofRatio (x.units * d) (Binary64.unitsInOne * d) = .ofSize x.size := by
  have hfraction : Binary64.fractionSize = 2 ^ 52 := rfl
  have hsize : x.size < Binary64.infiniteSize := of_decide_eq_true hfinite
  rw [Binary64.ofRatio_mul_right _ _ hd, Binary64.ofRatio, Nat.mul_div_cancel _ unitsInOne_pos]
  have hround : ∀ q k, Binary64.roundHalfEven (q * 2 ^ k * Binary64.unitsInOne)
      (Binary64.unitsInOne * Nat.pow 2 k) = q := by
    intro q k
    rw [Nat.mul_assoc, Nat.mul_comm (2 ^ k)]
    exact Binary64.roundHalfEven_mul_self q (Nat.mul_pos unitsInOne_pos (Nat.pow_pos (by decide)))
  -- Small reals are counted in units. All others have 53 bits, and the ones below are zero.
  by_cases hsmall : x.size < Binary64.fractionSize
  · have hx : x.units = x.size * 2 ^ 0 := by simp [Binary64.units, hsmall]
    have hlog : x.units.log2 - 52 = 0 := by
      have hlt : x.units < 2 ^ 52 := by rwa [hx, Nat.pow_zero, Nat.mul_one]
      have := (Nat.log2_lt (Nat.ne_of_gt (units_pos hpos))).2 hlt
      omega
    rw [hlog, hx, hround, Nat.zero_mul, Nat.zero_add, Nat.min_eq_left (Nat.le_of_lt hsize)]
  · have hexponent : 1 ≤ x.size / Binary64.fractionSize :=
      (Nat.le_div_iff_mul_le (by decide)).2 (by omega)
    have hx : x.units = (Binary64.fractionSize + x.size % Binary64.fractionSize) *
        2 ^ (x.size / Binary64.fractionSize - 1) := by
      simp [Binary64.units, hsmall]
    have hmod := Nat.mod_lt x.size (show 0 < Binary64.fractionSize by decide)
    have hlog : x.units.log2 = 52 + (x.size / Binary64.fractionSize - 1) := by
      rw [Nat.log2_eq_iff (Nat.ne_of_gt (units_pos hpos)), hx]
      constructor
      · rw [Nat.pow_add]
        exact Nat.mul_le_mul_right _ (by omega)
      · rw [show 52 + (x.size / Binary64.fractionSize - 1) + 1 =
          53 + (x.size / Binary64.fractionSize - 1) by omega, Nat.pow_add]
        exact Nat.mul_lt_mul_of_pos_right (by omega) (Nat.pow_pos (by decide))
    have hdropped : x.units.log2 - 52 = x.size / Binary64.fractionSize - 1 := by omega
    have hsum : (x.size / Binary64.fractionSize - 1) * Binary64.fractionSize +
        (Binary64.fractionSize + x.size % Binary64.fractionSize) = x.size := by
      rw [← Nat.add_assoc, ← Nat.succ_mul, Nat.succ_eq_add_one, Nat.sub_add_cancel hexponent,
        Nat.mul_comm]
      exact Nat.div_add_mod _ _
    rw [hdropped, hx, hround, hsum, Nat.min_eq_left (Nat.le_of_lt hsize)]

/-- A real that is not negative is given by the bits below its sign. -/
theorem ofSize_size (hsign : ¬ x.isNegative) : Binary64.ofSize x.size = x := by
  have hlt : x.bits.toNat < Binary64.signSize := by simpa [Binary64.isNegative] using hsign
  rw [Binary64.ofSize, Binary64.size, Nat.mod_eq_of_lt hlt, UInt64.ofNat_toNat]

/-- A positive real with all its digits rounds to itself. -/
theorem toReal_exact (hpos : 0 < x.size) (hfinite : x.isFinite) (hsign : ¬ x.isNegative) :
    (exact x).toReal = x := by
  obtain ⟨hlower, hupper⟩ := order_exact hpos hfinite
  have hdigits : (exact x).digits ≠ 0 :=
    Nat.ne_of_gt (Nat.mul_pos (units_pos hpos) five_pow_pos)
  have hexponent : (exact x).exponent = -1074 := rfl
  calc (exact x).toReal
      = .ofRatio (x.units * Nat.pow 5 1074) (Nat.pow 10 1074) := by
        rw [toReal, if_neg hdigits, if_neg (by omega), if_neg (by omega), hexponent,
          if_neg (by decide), show (-(-1074 : Int)).toNat = 1074 from rfl, exact]
    _ = .ofSize x.size := by rw [ten_pow_eq, ofRatio_units hpos hfinite five_pow_pos]
    _ = x := ofSize_size hsign

/-- The decimal that is written for a positive real rounds to it. -/
theorem toReal_shortest_of_pos (hpos : 0 < x.size) (hfinite : x.isFinite)
    (hsign : ¬ x.isNegative) : (shortest x).toReal = x := by
  rcases toReal_shortest x with h | h
  · exact h
  · rw [h, toReal_exact hpos hfinite hsign]

/-- The decimal that is written for a positive real is not zero. -/
theorem digits_shortest_pos (hpos : 0 < x.size) (hfinite : x.isFinite) (hsign : ¬ x.isNegative) :
    0 < (shortest x).digits := by
  rw [Nat.pos_iff_ne_zero]
  intro hzero
  have h := toReal_shortest_of_pos hpos hfinite hsign
  rw [toReal, if_pos hzero] at h
  rw [← h] at hpos
  exact absurd hpos (by decide)

end Exact

end Decimal

end Bucket.Numeral
