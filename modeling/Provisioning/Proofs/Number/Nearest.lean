-- The whole number that a quotient is rounded to is the nearest one, and the even one
-- of two that are equally near.
import Mathlib.Algebra.Order.Field.Rat
import Mathlib.Algebra.Order.Group.Abs
import Mathlib.Tactic.FieldSimp
import Mathlib.Tactic.Linarith
import Mathlib.Tactic.Ring
import Provisioning.Number.Rounding

namespace Provisioning

/-- No whole number is nearer to the value, and if another is as near, this one is even. -/
structure IsNearest (n : Nat) (value : ℚ) : Prop where
  nearest : ∀ m : ℤ, |value - n| ≤ |value - m|
  even : ∀ m : ℤ, m ≠ n → |value - n| = |value - m| → n % 2 = 0

/-! ## Within half a unit -/

/-- Whole numbers lie a unit apart, so no second one is nearer than a half. -/
theorem half_le_of_ne {n : Nat} {m : ℤ} {value : ℚ} (hn : |value - n| ≤ 1 / 2) (h : m ≠ n) :
    1 / 2 ≤ |value - m| := by
  have hapart : (1 : ℚ) ≤ |(n : ℚ) - m| := by
    exact_mod_cast Int.one_le_abs (sub_ne_zero.mpr h.symm)
  have htriangle : |(n : ℚ) - m| ≤ |value - n| + |value - m| := by
    rw [abs_sub_comm value]
    exact abs_sub_le _ _ _
  linarith

theorem isNearest_of_half {n : Nat} {value : ℚ} (hhalf : |value - n| ≤ 1 / 2)
    (htie : |value - n| = 1 / 2 → n % 2 = 0) : IsNearest n value where
  nearest := by
    intro m
    by_cases hm : m = n
    · rw [hm, Int.cast_natCast]
    · exact le_trans hhalf (half_le_of_ne hhalf hm)
  even := by
    intro m hm heq
    apply htie
    apply le_antisymm hhalf
    rw [heq]
    exact half_le_of_ne hhalf hm

/-! ## The rounded quotient -/

/-- A quotient that lies halfway is rounded to an even number. -/
theorem roundDiv_even_of_half (num : Nat) {den : Nat} (hden : 0 < den)
    (h : 2 * (roundDiv .toEven num den * den) = 2 * num + den ∨
      2 * num = 2 * (roundDiv .toEven num den * den) + den) :
    roundDiv .toEven num den % 2 = 0 := by
  have hdiv := Nat.div_add_mod num den
  have hmod := Nat.mod_lt num hden
  rw [Nat.mul_comm den] at hdiv
  by_cases htie : 2 * (num % den) = den
  · unfold roundDiv
    dsimp only
    rw [if_neg (by omega), if_neg (by omega)]
    by_cases hodd : num / den % 2 = 1
    · rw [if_pos (by simp [Tie.roundsUp, hodd])]
      omega
    · rw [if_neg (by simp [Tie.roundsUp, hodd])]
      omega
  · rcases roundDiv_eq_or .toEven num den with hround | hround
    · rw [hround] at h
      omega
    · rw [hround, Nat.add_mul] at h
      omega

theorem isNearest_roundDiv (num : Nat) {den : Nat} (hden : 0 < den) :
    IsNearest (roundDiv .toEven num den) ((num : ℚ) / den) := by
  have hpos : (0 : ℚ) < den := by exact_mod_cast hden
  have habove : (2 * (roundDiv .toEven num den * den) : ℚ) ≤ 2 * num + den := by
    exact_mod_cast roundDiv_le_half .toEven num den hden
  have hbelow : (2 * num : ℚ) ≤ 2 * (roundDiv .toEven num den * den) + den := by
    exact_mod_cast half_le_roundDiv .toEven num den hden
  have heven := roundDiv_even_of_half num hden
  generalize roundDiv .toEven num den = n at *
  have hdistance : (num : ℚ) / den - n = (num - n * den) / den := by
    field_simp
  apply isNearest_of_half
  · rw [hdistance, abs_le, le_div_iff₀ hpos, div_le_iff₀ hpos]
    constructor <;> linarith
  · intro htie
    apply heven
    rw [hdistance, abs_eq (by norm_num), div_eq_iff hpos.ne', div_eq_iff hpos.ne'] at htie
    rcases htie with htie | htie
    · right
      have : (2 * num : ℚ) = 2 * (n * den) + den := by linarith
      exact_mod_cast this
    · left
      have : (2 * (n * den) : ℚ) = 2 * num + den := by linarith
      exact_mod_cast this

end Provisioning
