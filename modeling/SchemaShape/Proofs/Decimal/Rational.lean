import Mathlib.Algebra.Order.Field.Power
import Mathlib.Algebra.Order.Ring.Rat
import Mathlib.Tactic.NormNum
import Mathlib.Tactic.Positivity
import SchemaShape.Json.Basic

/-! # Numbers as rationals

The rational number that a JSON number stands for. Integers below `2 ^ 53` have a double of their own,
and the doubles of larger ones are no smaller than that, so that a bound which compares equal to such
an integer as a double is that integer.
-/

namespace SchemaShape
set_option autoImplicit false

def Binary64.toRat (d : Binary64) : ℚ :=
  (if d.negative then -1 else 1) * d.significand * 2 ^ d.exponent

def Number.toRat : Number → ℚ
  | integer value => value
  | double value => value.toRat

namespace Binary64

theorem abs_toRat (d : Binary64) : |d.toRat| = d.significand * 2 ^ d.exponent := by
  have hpos : (0 : ℚ) ≤ d.significand * 2 ^ d.exponent := by positivity
  rw [toRat]
  split
  · rw [neg_one_mul, neg_mul, abs_neg, abs_of_nonneg hpos]
  · rw [one_mul, abs_of_nonneg hpos]

theorem toRat_of_sameNumber {a b : Binary64} (h : a.sameNumber b = true) : a.toRat = b.toRat := by
  rw [sameNumber, Bool.or_eq_true, decide_eq_true_eq, Bool.and_eq_true, decide_eq_true_eq,
    decide_eq_true_eq] at h
  rcases h with rfl | ⟨ha, hb⟩
  · rfl
  · simp [toRat, ha, hb]

/-! ## Rounding integers -/

theorem nearestEven_one (n : Nat) : nearestEven n 1 = n := by
  simp [nearestEven, Nat.mod_one]

theorem le_nearestEven (n d : Nat) : n / d ≤ nearestEven n d := by
  simp only [nearestEven]
  split
  · exact Nat.le_refl _
  · split
    · omega
    · omega

theorem gridExponent_one {n : Nat} (h : n ≠ 0) : gridExponent n 1 = (n.log2 : Int) - 52 := by
  have hle : 2 ^ n.log2 ≤ n := Nat.log2_self_le h
  have hlog : Nat.log2 1 = 0 := by decide
  have hnot : ¬ n < 1 * Nat.pow 2 ((n.log2 : Int) - (0 : Nat)).toNat := by
    have heq : ((n.log2 : Int) - (0 : Nat)).toNat = n.log2 := by omega
    rw [heq, Nat.one_mul]
    exact Nat.not_lt.mpr hle
  have hnonneg : (0 : Int) ≤ (n.log2 : Int) - (0 : Nat) := by omega
  simp only [gridExponent, hlog, hnonneg, if_true, hnot, if_false]
  omega

theorem round_small {n : Nat} (negative : Bool) (hpos : n ≠ 0) (h : n < 2 ^ 53) :
    round negative n 1 = some ⟨negative, n * 2 ^ (52 - n.log2), -((52 - n.log2 : Nat) : Int)⟩ := by
  have hlog : n.log2 < 53 := (Nat.log2_lt hpos).mpr h
  have hlt : n < 2 ^ (n.log2 + 1) := Nat.lt_log2_self
  have hpow : 2 ^ (n.log2 + 1) * 2 ^ (52 - n.log2) = 2 ^ 53 := by
    rw [← Nat.pow_add]
    congr 1
    omega
  have hbound : n * 2 ^ (52 - n.log2) < 2 ^ 53 := by
    rw [← hpow]
    exact Nat.mul_lt_mul_of_pos_right hlt (Nat.two_pow_pos _)
  have hexponent : (n.log2 : Int) - 52 = -((52 - n.log2 : Nat) : Int) := by omega
  have hsignificand : (if 0 ≤ -((52 - n.log2 : Nat) : Int) then
      nearestEven n (1 * Nat.pow 2 (-((52 - n.log2 : Nat) : Int)).toNat)
      else nearestEven (n * Nat.pow 2 (- -((52 - n.log2 : Nat) : Int)).toNat) 1) =
      n * 2 ^ (52 - n.log2) := by
    split
    · have hzero : 52 - n.log2 = 0 := by omega
      rw [hzero]
      exact (nearestEven_one n).trans (Nat.mul_one n).symm
    · rw [nearestEven_one, neg_neg, Int.toNat_natCast]
      rfl
  have hne : n * 2 ^ (52 - n.log2) ≠ 0 :=
    Nat.mul_ne_zero hpos (Nat.pos_iff_ne_zero.mp (Nat.two_pow_pos _))
  have hmax : ¬ (971 : Int) < -((52 - n.log2 : Nat) : Int) := by omega
  have hcarry : ¬ n * 2 ^ (52 - n.log2) = Nat.pow 2 53 := Nat.ne_of_lt hbound
  simp only [round, if_neg hpos, gridExponent_one hpos, hexponent, hsignificand, if_neg hcarry,
    if_neg hmax, if_neg hne]

theorem round_large {n : Nat} (negative : Bool) (hlow : 2 ^ 53 ≤ n) (hhigh : n < 2 ^ 64) :
    ∃ d, round negative n 1 = some d ∧ 2 ^ 53 ≤ |d.toRat| := by
  have hpos : n ≠ 0 := by
    rintro rfl
    exact absurd hlow (by decide)
  have hlog : 53 ≤ n.log2 := (Nat.le_log2 hpos).mpr hlow
  have hlog' : n.log2 < 64 := (Nat.log2_lt hpos).mpr hhigh
  obtain ⟨k, hk⟩ : ∃ k, n.log2 = k + 53 := ⟨n.log2 - 53, by omega⟩
  have hexponent : (n.log2 : Int) - 52 = ((k + 1 : Nat) : Int) := by omega
  have hquotient : 2 ^ 52 ≤ nearestEven n (1 * Nat.pow 2 (k + 1)) := by
    refine Nat.le_trans ?_ (le_nearestEven n _)
    rw [Nat.one_mul]
    refine (Nat.le_div_iff_mul_le (Nat.two_pow_pos (k + 1))).mpr ?_
    have hself : 2 ^ n.log2 ≤ n := Nat.log2_self_le hpos
    rw [hk] at hself
    have hsplit : 2 ^ (k + 53) = 2 ^ 52 * 2 ^ (k + 1) := by
      rw [← Nat.pow_add]
      congr 1
      omega
    omega
  have hlarge : ∀ significand : Nat, ∀ exponent : Int, 2 ^ 52 ≤ significand → 1 ≤ exponent →
      (2 : ℚ) ^ 53 ≤ |(Binary64.mk negative significand exponent).toRat| := by
    intro significand exponent hsignificand hexponent
    have hs : (2 : ℚ) ^ 52 ≤ significand := by exact_mod_cast hsignificand
    have he : (2 : ℚ) ^ (1 : Int) ≤ 2 ^ exponent := zpow_le_zpow_right₀ (by norm_num) hexponent
    rw [abs_toRat]
    calc (2 : ℚ) ^ 53 = (2 : ℚ) ^ 52 * (2 : ℚ) ^ (1 : Int) := by norm_num
      _ ≤ significand * (2 : ℚ) ^ exponent := by gcongr
  have hnonneg : (0 : Int) ≤ ((k + 1 : Nat) : Int) := by omega
  simp only [round, if_neg hpos, gridExponent_one hpos, hexponent, if_pos hnonneg, Int.toNat_natCast]
  by_cases hcarry : nearestEven n (1 * Nat.pow 2 (k + 1)) = Nat.pow 2 53
  · have hmax : ¬ (971 : Int) < ((k + 1 : Nat) : Int) + 1 := by omega
    have hne : ¬ Nat.pow 2 52 = 0 := by decide
    simp only [if_pos hcarry, if_neg hmax, if_neg hne]
    exact ⟨_, rfl, hlarge _ _ (Nat.le_refl _) (by omega)⟩
  · have hmax : ¬ (971 : Int) < ((k + 1 : Nat) : Int) := by omega
    have hne : ¬ nearestEven n (1 * Nat.pow 2 (k + 1)) = 0 := by omega
    simp only [if_neg hcarry, if_neg hmax, if_neg hne]
    exact ⟨_, rfl, hlarge _ _ hquotient (by omega)⟩

theorem toRat_ofInt_small {value : Int} (h : value.natAbs < 2 ^ 53) :
    (ofInt value).toRat = value := by
  by_cases hzero : value = 0
  · subst hzero
    simp [ofInt, round, zero, toRat]
  · have hround := round_small (decide (value < 0)) (Int.natAbs_ne_zero.mpr hzero) h
    generalize 52 - value.natAbs.log2 = k at hround
    have hcancel : (2 : ℚ) ^ k * 2 ^ (-(k : Int)) = 1 := by
      rw [← zpow_natCast, ← zpow_add₀ (by norm_num), add_neg_cancel, zpow_zero]
    rw [ofInt, hround, Option.getD_some, toRat, Nat.cast_mul, Nat.cast_pow, Nat.cast_ofNat,
      mul_assoc, mul_assoc, hcancel, mul_one]
    by_cases hneg : value < 0
    · simp [hneg, Nat.cast_natAbs, abs_of_neg hneg]
    · simp [hneg, Nat.cast_natAbs, abs_of_nonneg (Int.not_lt.mp hneg)]

theorem toRat_ofInt_large {value : Int} (hlow : 2 ^ 53 ≤ value.natAbs)
    (hhigh : value.natAbs < 2 ^ 64) : 2 ^ 53 ≤ |(ofInt value).toRat| := by
  obtain ⟨d, hround, hd⟩ := round_large (decide (value < 0)) hlow hhigh
  rw [ofInt, hround]
  exact hd

end Binary64

/-- A bound that compares equal to a length is that length. -/
theorem Number.toRat_of_sameNumber {bound : Number} {length : Nat} (hlength : length < 2 ^ 53)
    (hbound : ∀ value, bound = .integer value → value.natAbs < 2 ^ 64)
    (h : bound.toBinary64.sameNumber (Binary64.ofInt length) = true) : bound.toRat = length := by
  have hlength' : (Binary64.ofInt length).toRat = length := by
    have hint : ((length : Int) : ℚ) = length := Int.cast_natCast length
    rw [Binary64.toRat_ofInt_small (by simpa using hlength), hint]
  have heq := (Binary64.toRat_of_sameNumber h).trans hlength'
  cases bound with
  | double d => exact heq
  | integer value =>
    have heq' : (Binary64.ofInt value).toRat = length := heq
    by_cases hsmall : value.natAbs < 2 ^ 53
    · rw [Binary64.toRat_ofInt_small hsmall] at heq'
      exact heq'
    · have hlarge := Binary64.toRat_ofInt_large (Nat.not_lt.mp hsmall) (hbound value rfl)
      rw [heq', abs_of_nonneg (Nat.cast_nonneg length)] at hlarge
      have : 2 ^ 53 ≤ length := by exact_mod_cast hlarge
      omega

end SchemaShape
