-- The literal that a number is written as: an integer by its digits, a double by the
-- shortest decimal that reads back as it, with a point or an exponent.
import Provisioning.Proofs.Json.NumberText

namespace Provisioning

/-! ## Shortest decimals -/

/-- Zero is written with no exponent. -/
theorem Decimal.trim_exponent (d : Decimal) (h : d.trim.digits = 0) : d.trim.exponent = 0 := by
  induction d using Decimal.trim.induct with
  | case1 d hzero =>
    rw [Decimal.trim, dif_pos hzero]
  | case2 d hzero hten ih =>
    rw [Decimal.trim, dif_neg hzero, dif_pos hten] at h ⊢
    exact ih h
  | case3 d hzero hten =>
    rw [Decimal.trim, dif_neg hzero, dif_neg hten] at h
    exact absurd h hzero

theorem FiniteDouble.shortest_exponent {tie : Tie} {x : FiniteDouble}
    (h : (x.shortest tie).digits = 0) : (x.shortest tie).exponent = 0 := by
  unfold shortest at h ⊢
  split
  · rfl
  · rename_i hzero
    rw [if_neg hzero] at h
    dsimp only at h ⊢
    split at h
    · exact Decimal.trim_exponent _ h
    · rfl

namespace Json

/-- The exponent of the first digit of a decimal. -/
def leadExponent (d : Decimal) : Int := d.exponent + (decimalDigits d.digits).length - 1

/-- A decimal with a point or an exponent, as JSON has it. -/
def decimalLiteral (negative : Bool) (d : Decimal) : NumberLiteral :=
  let digits := decimalDigits d.digits
  let lead := leadExponent d
  if jsonLayout.positional lead then
    if lead < 0 then
      ⟨negative, [0], List.replicate (-lead - 1).toNat 0 ++ digits, false, false, []⟩
    else
      let whole := lead.toNat + 1
      if digits.length ≤ whole then
        ⟨negative, digits ++ List.replicate (whole - digits.length) 0, [0], false, false, []⟩
      else ⟨negative, digits.take whole, digits.drop whole, false, false, []⟩
  else
    ⟨negative, digits.take 1, digits.drop 1, false, decide (lead < 0), decimalDigits lead.natAbs⟩

/-- The literal that a number is written as. -/
def Number.literal : Number → NumberLiteral
  | .integer n => ⟨decide (n < 0), decimalDigits n.natAbs, [], true, false, []⟩
  | .float x => decimalLiteral x.negative (x.shortest .toEven)

/-! ## Its text -/

theorem jsonLayout_keepsPoint : jsonLayout.keepsPoint = true := rfl

/-- The text of a decimal, with its sign. -/
theorem decimalLiteral_chars (negative : Bool) (d : Decimal) :
    (decimalLiteral negative d).chars =
      if negative then '-' :: jsonLayout.decimalText d else jsonLayout.decimalText d := by
  suffices h : (decimalLiteral negative d).negative = negative ∧
      (decimalLiteral negative d).magnitudeChars = jsonLayout.decimalText d by
    rw [NumberLiteral.chars, h.1, h.2]
  have hlead : d.exponent + (Nat.toDigits 10 d.digits).length - 1 = leadExponent d := by
    rw [leadExponent, decimalDigits_length]
  unfold decimalLiteral NumberLayout.decimalText
  dsimp only
  rw [hlead]
  split
  · unfold NumberLayout.positionalText
    dsimp only
    rw [decimalDigits_length]
    split
    · refine ⟨rfl, ?_⟩
      simp [NumberLiteral.magnitudeChars, NumberLiteral.fractionChars, NumberLiteral.exponentChars,
        digitChars_append, digitChars_zero, digitChars_replicate_zero, digitChars_decimalDigits,
        decimalDigits_ne_nil]
    · split
      · refine ⟨rfl, ?_⟩
        simp [NumberLiteral.magnitudeChars, NumberLiteral.fractionChars,
          NumberLiteral.exponentChars, digitChars_append, digitChars_zero,
          digitChars_replicate_zero, digitChars_decimalDigits, jsonLayout_keepsPoint]
      · rename_i hlong
        refine ⟨rfl, ?_⟩
        have hdrop : (decimalDigits d.digits).drop ((leadExponent d).toNat + 1) ≠ [] := by
          rw [Ne, List.drop_eq_nil_iff, decimalDigits_length]
          exact hlong
        simp only [NumberLiteral.magnitudeChars, NumberLiteral.fractionChars,
          NumberLiteral.exponentChars, if_neg hdrop, digitChars_take, digitChars_drop,
          digitChars_decimalDigits]
        simp
  · refine ⟨rfl, ?_⟩
    have hfraction : ((decimalDigits d.digits).drop 1 = []) ↔
        ((Nat.toDigits 10 d.digits).drop 1).isEmpty = true := by
      rw [← digitChars_eq_nil, digitChars_drop, digitChars_decimalDigits, List.isEmpty_iff]
    unfold NumberLayout.exponentText
    simp only [NumberLiteral.magnitudeChars, NumberLiteral.fractionChars,
      NumberLiteral.exponentChars, if_neg (decimalDigits_ne_nil _), hfraction, digitChars_take,
      digitChars_drop, digitChars_decimalDigits, decide_eq_true_eq]

theorem Number.literal_chars (n : Number) : n.literal.chars = n.text.toList := by
  cases n with
  | integer n =>
    have hmagnitude : (literal (.integer n)).magnitudeChars = n.natAbs.repr.toList := by
      simp [literal, NumberLiteral.magnitudeChars, NumberLiteral.fractionChars,
        NumberLiteral.exponentChars, digitChars_decimalDigits]
    rw [NumberLiteral.chars, hmagnitude, text, Int.toString_eq_repr, Int.repr_eq_if]
    by_cases hn : n < 0
    · rw [if_neg (show ¬ 0 ≤ n by omega), show (-n).toNat = n.natAbs by omega]
      simp [literal, hn]
    · rw [if_pos (show 0 ≤ n by omega), show n.toNat = n.natAbs by omega]
      simp [literal, hn]
  | float x =>
    change (decimalLiteral x.negative (x.shortest .toEven)).chars = _
    rw [decimalLiteral_chars]
    exact (String.toList_ofList).symm

/-! ## Its form -/

/-- The digits of a number with zeros behind them: none but zero starts with a zero. -/
theorem leading_decimalDigits (n : Nat) {k : Nat} (h : n = 0 → k = 0) :
    ∃ d ds, decimalDigits n ++ List.replicate k 0 = d :: ds ∧ (d = 0 → ds = []) := by
  by_cases hn : n = 0
  · exact ⟨0, [], by rw [h hn, hn]; rfl, fun _ => rfl⟩
  · obtain ⟨d, ds, hds, hd⟩ := head_decimalDigits hn
    exact ⟨d, ds ++ List.replicate k 0, by rw [hds, List.cons_append], fun h => absurd h hd⟩

theorem decimalLiteral_isWritten {negative : Bool} {d : Decimal}
    (h : d.digits = 0 → d.exponent = 0) : (decimalLiteral negative d).IsWritten := by
  have hdigit : ∀ x ∈ decimalDigits d.digits, x < 10 := fun x hx => lt_of_mem_decimalDigits hx
  have hzeros : ∀ {k : Nat}, ∀ x ∈ List.replicate k 0, x < 10 := by simp
  have hboth : ∀ {xs ys : List Nat}, (∀ x ∈ xs, x < 10) → (∀ x ∈ ys, x < 10) →
      ∀ x ∈ xs ++ ys, x < 10 := by
    intro xs ys hxs hys x hx
    exact (List.mem_append.mp hx).elim (hxs x) (hys x)
  -- Zero has one digit and no exponent.
  have hzero : d.digits = 0 → (decimalDigits d.digits).length = 1 ∧ leadExponent d = 0 := by
    intro hd
    have hlength : (decimalDigits d.digits).length = 1 := by
      rw [hd, decimalDigits_of_lt (by decide)]
      rfl
    exact ⟨hlength, by rw [leadExponent, hlength, h hd]; rfl⟩
  unfold decimalLiteral
  dsimp only
  split
  · split
    · exact
        { whole := by simp
          fraction := hboth hzeros hdigit
          exponent := nofun
          leading := ⟨0, [], rfl, fun _ => rfl⟩
          isWhole := by simp [decimalDigits_ne_nil]
          positive := fun _ => rfl }
    · split
      · exact
          { whole := hboth hdigit hzeros
            fraction := by simp
            exponent := nofun
            leading := leading_decimalDigits _ fun hd => by
              rw [(hzero hd).1, (hzero hd).2]
              rfl
            isWhole := rfl
            positive := fun _ => rfl }
      · rename_i hshort
        have hd : d.digits ≠ 0 := by
          intro hd
          rw [(hzero hd).1, (hzero hd).2] at hshort
          exact hshort (Nat.le_refl 1)
        obtain ⟨x, xs, hdigits, hx⟩ := head_decimalDigits hd
        exact
          { whole := fun x hx => hdigit x (List.mem_of_mem_take hx)
            fraction := fun x hx => hdigit x (List.mem_of_mem_drop hx)
            exponent := nofun
            leading := ⟨x, xs.take (leadExponent d).toNat, by rw [hdigits, List.take_succ_cons],
              fun h => absurd h hx⟩
            isWhole := by
              have hdrop := mt List.drop_eq_nil_iff.mp hshort
              simp [hdrop]
            positive := fun _ => rfl }
  · obtain ⟨x, xs, hdigits⟩ := List.exists_cons_of_ne_nil (decimalDigits_ne_nil d.digits)
    exact
      { whole := fun x hx => hdigit x (List.mem_of_mem_take hx)
        fraction := fun x hx => hdigit x (List.mem_of_mem_drop hx)
        exponent := fun x hx => lt_of_mem_decimalDigits hx
        leading := ⟨x, [], by rw [hdigits]; rfl, fun _ => rfl⟩
        isWhole := by simp [decimalDigits_ne_nil]
        positive := fun h => absurd h (decimalDigits_ne_nil _) }

theorem Number.literal_isWritten (n : Number) : n.literal.IsWritten := by
  cases n with
  | integer n =>
    have hleading := leading_decimalDigits n.natAbs (k := 0) fun _ => rfl
    rw [List.replicate_zero, List.append_nil] at hleading
    exact
      { whole := fun d hd => lt_of_mem_decimalDigits hd
        fraction := nofun
        exponent := nofun
        leading := hleading
        isWhole := rfl
        positive := fun _ => rfl }
  | float x => exact decimalLiteral_isWritten fun h => x.shortest_exponent h

/-- A number stands as its literal before whatever ends it. -/
theorem tokens_number (n : Number) {rest : Glyphs} (hrest : EndsNumber rest) :
    tokens (before n.text.toList rest) = .number n.literal :: tokens rest := by
  rw [← n.literal_chars]
  exact tokens_literal n.literal_isWritten hrest

end Json

end Provisioning
