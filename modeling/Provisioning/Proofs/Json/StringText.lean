-- A string between its quotes is the token of its content: every escape that is written
-- is read as the character that it stands for.
import Provisioning.Json.Value
import Provisioning.Proofs.Json.Tokens

namespace Provisioning.Json

/-- The pieces up to the closing quote spell these characters, and leave the rest. -/
def Spells (s : Glyphs) (text : List Char) (rest : Glyphs) : Prop :=
  (stringUnits s).2.1 = .quote ∧ (stringUnits s).2.2.1 = rest ∧
    unitGlyphs .quote (stringUnits s).1 = .ok (text.map some)

theorem spells_nil (rest : Glyphs) : Spells (some '"' :: rest) [] rest := by
  simp [Spells, stringUnits, unitGlyphs, StringEnd.fault?]

/-! ## One character -/

/-- The four hex digits of a control character. -/
theorem hexCode?_controlCode {n : Nat} (h : n < 0x20) :
    hexCode? (some '0') (some '0') (some (if n < 16 then '0' else '1'))
      (some (Nat.digitChar (n % 16))) = some n := by
  revert n
  decide

/-- A code that is no surrogate is a character of its own. -/
theorem unitGlyphs_code {n : Nat} (h : n < 0x20) (close : StringEnd) (units : List StringUnit) :
    unitGlyphs close (.code n :: units) =
      (unitGlyphs close units).map (some (Char.ofNat n) :: ·) := by
  have hlead : isLeadSurrogate n = false := by
    simp only [isLeadSurrogate, Bool.and_eq_false_iff, decide_eq_false_iff_not]
    omega
  have htrail : isTrailSurrogate n = false := by
    simp only [isTrailSurrogate, Bool.and_eq_false_iff, decide_eq_false_iff_not]
    omega
  rw [unitGlyphs.eq_def]
  simp only [hlead, htrail, Bool.false_eq_true, if_false]

section
variable {s rest : Glyphs} {text : List Char} (h : Spells s text rest)
include h

theorem spells_escape {e c : Char} (he : escapeChar? e = some c) :
    Spells (some '\\' :: some e :: s) (c :: text) rest := by
  have hu : e ≠ 'u' := by
    rintro rfl
    cases he
  obtain ⟨hend, hrest, hglyphs⟩ := h
  simp [Spells, stringUnits, he, unitGlyphs, hend, hrest, hglyphs, Except.map]

theorem spells_code {c : Char} (hc : c.toNat < 0x20) :
    Spells (before ('\\' :: 'u' :: controlCode c.toNat) s) (c :: text) rest := by
  obtain ⟨hend, hrest, hglyphs⟩ := h
  simp [Spells, controlCode, stringUnits, hexCode?_controlCode hc, unitGlyphs_code hc, hend, hrest,
    hglyphs, Except.map]

theorem spells_plain {c : Char} (hquote : c ≠ '"') (hslash : c ≠ '\\') (hc : ¬ c.toNat < 0x20) :
    Spells (some c :: s) (c :: text) rest := by
  obtain ⟨hend, hrest, hglyphs⟩ := h
  simp [Spells, stringUnits, hquote, hslash, hc, unitGlyphs, hend, hrest, hglyphs, Except.map]

/-- A character as it is written is read as itself. -/
theorem spells_char (c : Char) : Spells (before (stringChar c) s) (c :: text) rest := by
  unfold stringChar
  -- The seven escapes of two characters come first.
  iterate 7
    split
    · subst c
      exact spells_escape h rfl
  split
  · exact spells_code h ‹_›
  · exact spells_plain h ‹_› ‹_› ‹_›

end

theorem spells_chars (cs : List Char) (rest : Glyphs) :
    Spells (before (cs.flatMap stringChar) (some '"' :: rest)) cs rest := by
  induction cs with
  | nil => exact spells_nil rest
  | cons c cs ih =>
    rw [List.flatMap_cons, before_append]
    exact spells_char ih c

/-! ## The token -/

theorem mapM_some (cs : List Char) : (cs.map some).mapM id = some cs := by
  induction cs with
  | nil => rfl
  | cons c cs ih => simp [List.mapM_cons, ih]

theorem stringToken_of_spells {s rest : Glyphs} {cs : List Char} (h : Spells s cs rest) :
    Yields (stringToken s) (.string (.ok (String.ofList cs))) rest := by
  unfold Spells at h
  unfold stringToken
  revert h
  rcases stringUnits s with ⟨units, close, r⟩
  rintro ⟨rfl, hrest, hglyphs⟩
  have htext : unitsText .quote units = .ok (String.ofList cs) := by
    simp only [unitsText, hglyphs, mapM_some]
  simp only [htext]
  exact ⟨rfl, hrest⟩

/-- A string as it is written is the token of its content. -/
theorem tokens_string (s : String) (rest : Glyphs) :
    tokens (before (stringChars s) rest) = .string (.ok s) :: tokens rest := by
  have htoken := stringToken_of_spells (spells_chars s.toList rest)
  rw [String.ofList_toList] at htoken
  rw [stringChars, before_append, before_cons]
  exact tokens_of_yields rfl htoken rfl

end Provisioning.Json
