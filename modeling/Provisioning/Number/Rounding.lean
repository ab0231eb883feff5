-- Rounding the quotient of two natural numbers to a whole number. Doubles,
-- durations and shortest digits all round through `roundDiv`, so there is
-- one rule for a value that lies halfway.

namespace Provisioning

/-- Where a value halfway between two whole numbers goes. -/
inductive Tie
  | toEven
  | up
deriving DecidableEq, Repr

/-- Does a half above `q` go to `q + 1`? -/
def Tie.roundsUp : Tie → Nat → Bool
  | .toEven, q => q % 2 == 1
  | .up, _ => true

/-- The whole number nearest to `num / den`. -/
def roundDiv (tie : Tie) (num den : Nat) : Nat :=
  let q := num / den
  let r := num % den
  if 2 * r < den then q
  else if den < 2 * r then q + 1
  else if tie.roundsUp q then q + 1 else q

/-! ## Laws -/

/-- The answer is one of the two whole numbers around the quotient. -/
theorem roundDiv_eq_or (tie : Tie) (num den : Nat) :
    roundDiv tie num den = num / den ∨ roundDiv tie num den = num / den + 1 := by
  unfold roundDiv
  dsimp only
  split
  · exact .inl rfl
  · split
    · exact .inr rfl
    · split
      · exact .inr rfl
      · exact .inl rfl

/-- The answer lies at most half a unit above the quotient. -/
theorem roundDiv_le_half (tie : Tie) (num den : Nat) (h : 0 < den) :
    2 * (roundDiv tie num den * den) ≤ 2 * num + den := by
  have hdiv := Nat.div_add_mod num den
  have hmod := Nat.mod_lt num h
  rw [Nat.mul_comm den] at hdiv
  unfold roundDiv
  dsimp only
  split
  · omega
  · split
    · rw [Nat.add_mul]; omega
    · split
      · rw [Nat.add_mul]; omega
      · omega

/-- The answer lies at most half a unit below the quotient. -/
theorem half_le_roundDiv (tie : Tie) (num den : Nat) (h : 0 < den) :
    2 * num ≤ 2 * (roundDiv tie num den * den) + den := by
  have hdiv := Nat.div_add_mod num den
  have hmod := Nat.mod_lt num h
  rw [Nat.mul_comm den] at hdiv
  unfold roundDiv
  dsimp only
  split
  · omega
  · split
    · rw [Nat.add_mul]; omega
    · split
      · rw [Nat.add_mul]; omega
      · omega

/-- A whole quotient is its own rounding. -/
theorem roundDiv_mul (tie : Tie) (q den : Nat) (h : 0 < den) :
    roundDiv tie (q * den) den = q := by
  unfold roundDiv
  rw [Nat.mul_div_cancel _ h, Nat.mul_mod_left]
  simp [h]

end Provisioning
