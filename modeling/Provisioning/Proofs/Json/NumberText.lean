-- How a number literal is written, and that it is the token of what is written.
import Provisioning.Proofs.Json.Tokens
import Provisioning.Proofs.Text.Digits

namespace Provisioning.Json

/-! ## Literals as texts -/

namespace NumberLiteral

/-- The digits after the point, with the point. -/
def fractionChars (l : NumberLiteral) : List Char :=
  if l.fraction = [] then [] else '.' :: digitChars l.fraction

/-- The exponent with its letter and its sign. -/
def exponentChars (l : NumberLiteral) : List Char :=
  if l.exponent = [] then []
  else 'e' :: (if l.exponentNegative then '-' else '+') :: digitChars l.exponent

/-- What follows the sign of a literal. -/
def magnitudeChars (l : NumberLiteral) : List Char :=
  digitChars l.whole ++ l.fractionChars ++ l.exponentChars

def chars (l : NumberLiteral) : List Char :=
  if l.negative then '-' :: l.magnitudeChars else l.magnitudeChars

/-- What is known of a literal before its point. -/
def wholePart (l : NumberLiteral) : NumberLiteral :=
  { l with fraction := [], isWhole := true, exponentNegative := false, exponent := [] }

/-- What is known of a literal before its exponent. -/
def mantissaPart (l : NumberLiteral) : NumberLiteral :=
  { l with isWhole := l.fraction.isEmpty, exponentNegative := false, exponent := [] }

/-- A literal as it is written: a zero stands alone before the point, and what is not there
is told by what is there. -/
structure IsWritten (l : NumberLiteral) : Prop where
  whole : ∀ d ∈ l.whole, d < 10
  fraction : ∀ d ∈ l.fraction, d < 10
  exponent : ∀ d ∈ l.exponent, d < 10
  leading : ∃ d ds, l.whole = d :: ds ∧ (d = 0 → ds = [])
  isWhole : l.isWhole = (l.fraction.isEmpty && l.exponent.isEmpty)
  positive : l.exponent = [] → l.exponentNegative = false

end NumberLiteral

/-! ## What follows a number -/

/-- What can follow a number: nothing that would go on with it. -/
def EndsNumber (rest : Glyphs) : Prop :=
  ∀ c ∈ rest.head?, digit? c = none ∧ c ≠ some '.' ∧ c ≠ some 'e' ∧ c ≠ some 'E'

theorem endsNumber_nil : EndsNumber [] := nofun

theorem endsNumber_cons {c : Option Char} {rest : Glyphs} :
    EndsNumber (c :: rest) ↔
      digit? c = none ∧ c ≠ some '.' ∧ c ≠ some 'e' ∧ c ≠ some 'E' := by
  simp [EndsNumber]

theorem takeDigits_of_none {rest : Glyphs} (h : ∀ c ∈ rest.head?, digit? c = none) :
    Yields (takeDigits rest) [] rest := by
  cases rest with
  | nil => exact ⟨rfl, rfl⟩
  | cons c rest =>
    unfold takeDigits
    rw [h c rfl]
    exact ⟨rfl, rfl⟩

theorem takeDigits_before {ds : List Nat} (hds : ∀ d ∈ ds, d < 10) {rest : Glyphs}
    (h : ∀ c ∈ rest.head?, digit? c = none) :
    Yields (takeDigits (before (digitChars ds) rest)) ds rest := by
  induction ds with
  | nil => exact takeDigits_of_none h
  | cons d ds ih =>
    obtain ⟨htaken, hrest⟩ := ih fun x hx => hds x (List.mem_cons_of_mem _ hx)
    have hd : digit? (some (Nat.digitChar d)) = some d :=
      decimalDigit?_digitChar (hds d List.mem_cons_self)
    change Yields (takeDigits (some (Nat.digitChar d) :: before (digitChars ds) rest)) _ _
    unfold takeDigits
    rw [hd]
    exact ⟨congrArg (d :: ·) htaken, hrest⟩

/-! ## One part at a time -/

section
variable {l : NumberLiteral} {negative : Bool} {token : Token} {s rest : Glyphs}

theorem exponentDigits_of_digits {ds : List Nat} (h : Yields (takeDigits s) ds rest)
    (hds : ds ≠ []) :
    Yields (exponentDigits l negative s)
      (.number { l with isWhole := false, exponentNegative := negative, exponent := ds }) rest := by
  obtain ⟨hle, hdigits⟩ := h.exists_eq
  obtain ⟨d, ds, rfl⟩ := List.exists_cons_of_ne_nil hds
  unfold exponentDigits
  rw [hdigits]
  exact ⟨rfl, rfl⟩

theorem exponentPart?_of_ne (h : ∀ c ∈ rest.head?, c ≠ some 'e' ∧ c ≠ some 'E') :
    Yields (exponentPart? l rest) (.number l) rest := by
  unfold exponentPart?
  split
  · exact absurd rfl (h _ rfl).1
  · exact absurd rfl (h _ rfl).2
  · exact ⟨rfl, rfl⟩

variable (negative) in
theorem exponentPart?_of_sign (h : Yields (exponentDigits l negative s) token rest) :
    Yields (exponentPart? l (some 'e' :: some (if negative then '-' else '+') :: s)) token rest := by
  cases negative <;> exact h

theorem fractionPart?_of_ne (h : ∀ c ∈ s.head?, c ≠ some '.') :
    fractionPart? l s = exponentPart? l s := by
  unfold fractionPart?
  split
  · exact absurd rfl (h _ rfl)
  · rfl

theorem fractionPart?_of_digits {ds : List Nat} {t : Glyphs} (h : Yields (takeDigits s) ds t)
    (hds : ds ≠ [])
    (ht : Yields (exponentPart? { l with isWhole := false, fraction := ds } t) token rest) :
    Yields (fractionPart? l (some '.' :: s)) token rest := by
  obtain ⟨hle, hdigits⟩ := h.exists_eq
  obtain ⟨d, ds, rfl⟩ := List.exists_cons_of_ne_nil hds
  simp only [fractionPart?, hdigits]
  exact ht

theorem numberToken_of_digits {d : Nat} {ds : List Nat} {t : Glyphs}
    (h : Yields (takeDigits s) ds t) (hzero : d = 0 → ds = [])
    (ht : Yields (fractionPart? ⟨negative, d :: ds, [], true, false, []⟩ t) token rest) :
    Yields (numberToken negative d s) token rest := by
  obtain ⟨hle, hdigits⟩ := h.exists_eq
  unfold numberToken
  rw [hdigits]
  dsimp only
  rw [if_neg fun hd => hd.2 (hzero hd.1)]
  exact ht

theorem negativeToken_of_digit {c : Option Char} {d : Nat} (hc : digit? c = some d)
    (h : Yields (numberToken true d s) token rest) :
    Yields (negativeToken (c :: s)) token rest := by
  simp only [negativeToken, hc]
  exact h

end

/-- A digit starts a number. -/
theorem tokenFrom_digit {d : Nat} (hd : d < 10) (s : Glyphs) :
    isJsonBlank (some (Nat.digitChar d)) = false ∧
      tokenFrom (some (Nat.digitChar d)) s = numberToken false d s := by
  -- A token starts with a literal character, so each digit is looked at by itself.
  have : d = 0 ∨ d = 1 ∨ d = 2 ∨ d = 3 ∨ d = 4 ∨ d = 5 ∨ d = 6 ∨ d = 7 ∨ d = 8 ∨ d = 9 := by omega
  rcases this with rfl | rfl | rfl | rfl | rfl | rfl | rfl | rfl | rfl | rfl <;> exact ⟨rfl, rfl⟩

/-! ## Tokens -/

theorem mantissaPart_eq_self {l : NumberLiteral} (hl : l.IsWritten) (h : l.exponent = []) :
    l.mantissaPart = l := by
  have hpositive := hl.positive h
  have hwhole := hl.isWhole
  cases l
  simp_all [NumberLiteral.mantissaPart]

section
variable {l : NumberLiteral} (hl : l.IsWritten) {rest : Glyphs} (hrest : EndsNumber rest)
include hl hrest

/-- The exponent, if there is one. -/
theorem exponentPart?_before :
    Yields (exponentPart? l.mantissaPart (before l.exponentChars rest)) (.number l) rest := by
  unfold NumberLiteral.exponentChars
  by_cases hexponent : l.exponent = []
  · rw [if_pos hexponent, mantissaPart_eq_self hl hexponent]
    exact exponentPart?_of_ne fun c hc => (hrest c hc).2.2
  · have hwhole : l.isWhole = false := by simp [hl.isWhole, hexponent]
    have hdigits := takeDigits_before hl.exponent fun c hc => (hrest c hc).1
    have hpart := exponentPart?_of_sign l.exponentNegative
      (exponentDigits_of_digits (l := l.mantissaPart) hdigits hexponent)
    rw [if_neg hexponent]
    simpa [NumberLiteral.mantissaPart, ← hwhole] using hpart

/-- The point and what follows it, if there is one. -/
theorem fractionPart?_before :
    Yields (fractionPart? l.wholePart (before (l.fractionChars ++ l.exponentChars) rest))
      (.number l) rest := by
  have hexponent := exponentPart?_before hl hrest
  have hhead : ∀ c ∈ (before l.exponentChars rest).head?, digit? c = none ∧ c ≠ some '.' := by
    unfold NumberLiteral.exponentChars
    split
    · exact fun c hc => ⟨(hrest c hc).1, (hrest c hc).2.1⟩
    · rintro c ⟨⟩
      decide
  rw [before_append]
  unfold NumberLiteral.fractionChars
  by_cases hfraction : l.fraction = []
  · have hpart : l.wholePart = l.mantissaPart := by
      simp [NumberLiteral.wholePart, NumberLiteral.mantissaPart, hfraction]
    rw [if_pos hfraction, before_nil, fractionPart?_of_ne fun c hc => (hhead c hc).2, hpart]
    exact hexponent
  · have hpart : { l.wholePart with isWhole := false, fraction := l.fraction } = l.mantissaPart := by
      simp [NumberLiteral.wholePart, NumberLiteral.mantissaPart, hfraction]
    rw [if_neg hfraction, before_cons]
    apply fractionPart?_of_digits (takeDigits_before hl.fraction fun c hc => (hhead c hc).1) hfraction
    rw [hpart]
    exact hexponent

/-- The number after its sign. -/
theorem numberToken_before {d : Nat} {ds : List Nat} (hwhole : l.whole = d :: ds) :
    Yields (numberToken l.negative d
      (before (digitChars ds ++ l.fractionChars ++ l.exponentChars) rest)) (.number l) rest := by
  have hfraction := fractionPart?_before hl hrest
  obtain ⟨d', ds', hleading, hzero⟩ := hl.leading
  obtain ⟨rfl, rfl⟩ : d' = d ∧ ds' = ds := by simpa [hleading] using hwhole
  have hhead : ∀ c ∈ (before (l.fractionChars ++ l.exponentChars) rest).head?,
      digit? c = none := by
    unfold NumberLiteral.fractionChars NumberLiteral.exponentChars
    split <;> split
    · exact fun c hc => (hrest c hc).1
    all_goals
      rintro c ⟨⟩
      decide
  rw [List.append_assoc, before_append]
  apply numberToken_of_digits (takeDigits_before (fun x hx => hl.whole x ?_) hhead) hzero
  · simpa [NumberLiteral.wholePart, hwhole] using hfraction
  · simp [hwhole, hx]

/-- A literal as it is written is its own token. -/
theorem tokens_literal : tokens (before l.chars rest) = .number l :: tokens rest := by
  obtain ⟨d, ds, hwhole, -⟩ := hl.leading
  have hd : d < 10 := hl.whole d (by simp [hwhole])
  have hnumber := numberToken_before hl hrest hwhole
  have hchars : l.magnitudeChars =
      Nat.digitChar d :: (digitChars ds ++ l.fractionChars ++ l.exponentChars) := by
    simp [NumberLiteral.magnitudeChars, hwhole, digitChars]
  unfold NumberLiteral.chars
  cases hsign : l.negative with
  | false =>
    rw [hsign] at hnumber
    obtain ⟨hblank, htoken⟩ := tokenFrom_digit hd
      (before (digitChars ds ++ l.fractionChars ++ l.exponentChars) rest)
    rw [if_neg Bool.false_ne_true, hchars, before_cons]
    exact tokens_of_yields hblank (htoken ▸ hnumber) rfl
  | true =>
    rw [hsign] at hnumber
    rw [if_pos rfl, hchars, before_cons, before_cons]
    exact tokens_of_yields rfl (negativeToken_of_digit (decimalDigit?_digitChar hd) hnumber) rfl

end

end Provisioning.Json
