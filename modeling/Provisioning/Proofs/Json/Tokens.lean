-- The tokens of a text that goes on: each token is told by its own characters, whatever
-- comes after them.
import Provisioning.Json.Token

namespace Provisioning.Json

/-- Characters as glyphs, before others. -/
def before (cs : List Char) (rest : Glyphs) : Glyphs := cs.map some ++ rest

@[simp] theorem before_nil (rest : Glyphs) : before [] rest = rest := rfl

@[simp] theorem before_cons (c : Char) (cs : List Char) (rest : Glyphs) :
    before (c :: cs) rest = some c :: before cs rest := rfl

@[simp] theorem before_append (cs ds : List Char) (rest : Glyphs) :
    before (cs ++ ds) rest = before cs (before ds rest) := by
  simp [before]

theorem glyphs_eq_before (s : String) : glyphs s = before s.toList [] := by
  simp [glyphs, before]

/-- What a reader of glyphs gives, and what it leaves of them. -/
def Yields {α : Type} {s : Glyphs} (result : α × Remainder s) (a : α) (rest : Glyphs) : Prop :=
  result.1 = a ∧ result.2.1 = rest

theorem Yields.exists_eq {α : Type} {s rest : Glyphs} {result : α × Remainder s} {a : α}
    (h : Yields result a rest) : ∃ hle, result = (a, ⟨rest, hle⟩) := by
  obtain ⟨rfl, rfl⟩ := h
  exact ⟨result.2.2, rfl⟩

/-- Is this a token of a text that is in order? -/
def Token.isSound : Token → Bool
  | .bad _ _ => false
  | .badString _ _ => false
  | _ => true

/-- A sound token stands before the tokens of what follows it. -/
theorem tokens_of_yields {c : Option Char} {s rest : Glyphs} {token : Token}
    (hblank : isJsonBlank c = false) (htoken : Yields (tokenFrom c s) token rest)
    (hsound : token.isSound = true) : tokens (c :: s) = token :: tokens rest := by
  obtain ⟨hle, htoken⟩ := htoken.exists_eq
  rw [tokens, hblank, htoken]
  cases token <;> first | rfl | cases hsound

/-! ## Marks -/

theorem tokens_openList (rest : Glyphs) : tokens (some '[' :: rest) = .openList :: tokens rest :=
  tokens_of_yields rfl ⟨rfl, rfl⟩ rfl

theorem tokens_closeList (rest : Glyphs) : tokens (some ']' :: rest) = .closeList :: tokens rest :=
  tokens_of_yields rfl ⟨rfl, rfl⟩ rfl

theorem tokens_openObject (rest : Glyphs) :
    tokens (some '\x7b' :: rest) = .openObject :: tokens rest :=
  tokens_of_yields rfl ⟨rfl, rfl⟩ rfl

theorem tokens_closeObject (rest : Glyphs) :
    tokens (some '\x7d' :: rest) = .closeObject :: tokens rest :=
  tokens_of_yields rfl ⟨rfl, rfl⟩ rfl

theorem tokens_comma (rest : Glyphs) : tokens (some ',' :: rest) = .comma :: tokens rest :=
  tokens_of_yields rfl ⟨rfl, rfl⟩ rfl

theorem tokens_colon (rest : Glyphs) : tokens (some ':' :: rest) = .colon :: tokens rest :=
  tokens_of_yields rfl ⟨rfl, rfl⟩ rfl

/-! ## Words -/

theorem wordToken_before (token : Token) (word : List Char) (rest : Glyphs) :
    Yields (wordToken token word (before word rest)) token rest := by
  induction word with
  | nil => exact ⟨rfl, rfl⟩
  | cons c word ih =>
    obtain ⟨htoken, hrest⟩ := ih
    simp [Yields, wordToken, htoken, hrest]

theorem tokens_null (rest : Glyphs) :
    tokens (before ['n', 'u', 'l', 'l'] rest) = .null :: tokens rest :=
  tokens_of_yields rfl (wordToken_before .null ['u', 'l', 'l'] rest) rfl

theorem tokens_true (rest : Glyphs) :
    tokens (before ['t', 'r', 'u', 'e'] rest) = .bool true :: tokens rest :=
  tokens_of_yields rfl (wordToken_before (.bool true) ['r', 'u', 'e'] rest) rfl

theorem tokens_false (rest : Glyphs) :
    tokens (before ['f', 'a', 'l', 's', 'e'] rest) = .bool false :: tokens rest :=
  tokens_of_yields rfl (wordToken_before (.bool false) ['a', 'l', 's', 'e'] rest) rfl

end Provisioning.Json
