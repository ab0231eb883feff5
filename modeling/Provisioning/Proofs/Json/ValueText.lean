-- The text of a value has one tree: the value itself, as it is written.
import Provisioning.Proofs.Json.NumberLiteral
import Provisioning.Proofs.Json.StringText

namespace Provisioning.Json

/-! ## The tree of a value -/

mutual

/-- A value as it is written. -/
def Value.node : Value → Node
  | .null => .null
  | .bool value => .bool value
  | .number n => .number n.literal
  | .string s => .string (.ok s)
  | .list items => .list (itemNodes items) .closed
  | .object members => .object (memberNodes members) .closed

def itemNodes : List Value → List Node
  | [] => []
  | value :: rest => value.node :: itemNodes rest

def memberNodes : List (String × Value) → List (Key × Node)
  | [] => []
  | (name, value) :: rest => (.ok name, value.node) :: memberNodes rest

end

/-! ## Reading on -/

/-- What one token does, and then the tokens after it. -/
def Progress.followedBy : Progress → List Token → Document
  | .goOn position, rest => position.read rest
  | .complete node, rest => ⟨node, rest.isEmpty⟩
  | .cutShort node, _ => ⟨node, true⟩

theorem read_cons (position : Position) (token : Token) (rest : List Token) :
    position.read (token :: rest) = (position.take token).followedBy rest := by
  rw [Position.read]
  cases position.take token <;> rfl

/-- The first token of a value is no end of a list. -/
theorem tokens_value_head (v : Value) {rest : Glyphs} (hrest : EndsNumber rest) :
    ∃ token after, tokens (before v.chars rest) = token :: after ∧ token ≠ .closeList := by
  cases v with
  | null => exact ⟨_, _, tokens_null rest, nofun⟩
  | bool value =>
    cases value with
    | true => exact ⟨_, _, tokens_true rest, nofun⟩
    | false => exact ⟨_, _, tokens_false rest, nofun⟩
  | number n => exact ⟨_, _, tokens_number n hrest, nofun⟩
  | string s => exact ⟨_, _, tokens_string s rest, nofun⟩
  | list items => exact ⟨_, _, tokens_openList _, nofun⟩
  | object members => exact ⟨_, _, tokens_openObject _, nofun⟩

/-- Where an item can come, it is read as a value in the list. -/
theorem read_firstItem {outer : List Frame} (v : Value) {rest : Glyphs} (hrest : EndsNumber rest) :
    (Position.firstItem outer).read (tokens (before v.chars rest)) =
      (Position.value (.list [] :: outer)).read (tokens (before v.chars rest)) := by
  obtain ⟨token, after, htokens, hopen⟩ := tokens_value_head v hrest
  rw [htokens, read_cons, read_cons]
  cases token <;> first | rfl | exact absurd rfl hopen

theorem read_nextItem {items : List Node} {outer : List Frame} (v : Value) {rest : Glyphs}
    (hrest : EndsNumber rest) :
    (Position.nextItem items outer).read (tokens (before v.chars rest)) =
      (Position.value (.list items :: outer)).read (tokens (before v.chars rest)) := by
  obtain ⟨token, after, htokens, hopen⟩ := tokens_value_head v hrest
  rw [htokens, read_cons, read_cons]
  cases token <;> first | rfl | exact absurd rfl hopen

theorem endsNumber_closeList (rest : Glyphs) : EndsNumber (some ']' :: rest) :=
  endsNumber_cons.mpr (by decide)

theorem endsNumber_closeObject (rest : Glyphs) : EndsNumber (some '\x7d' :: rest) :=
  endsNumber_cons.mpr (by decide)

theorem endsNumber_comma (rest : Glyphs) : EndsNumber (some ',' :: rest) :=
  endsNumber_cons.mpr (by decide)

/-- What stands behind the first item of a list does not go on with it. -/
theorem exists_itemChars (v : Value) (items : List Value) (rest : Glyphs) :
    ∃ after, EndsNumber after ∧
      before (itemChars (v :: items)) (some ']' :: rest) = before v.chars after := by
  cases items with
  | nil => exact ⟨some ']' :: rest, endsNumber_closeList rest, rfl⟩
  | cons w items =>
    exact ⟨_, endsNumber_comma _, before_append v.chars (',' :: itemChars (w :: items)) _⟩

/-- A name and its colon, where a name can come, ask for the member's value. -/
theorem read_nextKey {known : List (Key × Node)} {outer : List Frame} (name : String)
    (rest : Glyphs) :
    (Position.nextKey known outer).read (tokens (before (stringChars name) (some ':' :: rest))) =
      (Position.value (.member known (.ok name) :: outer)).read (tokens rest) := by
  rw [tokens_string, read_cons]
  change (Position.colon known (.ok name) outer).read _ = _
  rw [tokens_colon, read_cons]
  rfl

/-- Before the first member, a name is read as it is before any other. -/
theorem read_firstKey {outer : List Frame} (name : String) (v : Value)
    (members : List (String × Value)) (rest : Glyphs) :
    (Position.firstKey outer).read (tokens (before (memberChars ((name, v) :: members)) rest)) =
      (Position.nextKey [] outer).read
        (tokens (before (memberChars ((name, v) :: members)) rest)) := by
  obtain ⟨after, hchars⟩ : ∃ after, memberChars ((name, v) :: members) =
      stringChars name ++ after := by
    cases members with
    | nil => exact ⟨_, rfl⟩
    | cons m members =>
      exact ⟨':' :: v.chars ++ ',' :: memberChars (m :: members), List.append_assoc _ _ _⟩
  rw [hchars, before_append, tokens_string, read_cons, read_cons]
  rfl

/-! ## The tree of its text -/

-- By induction on the value, over all frames that may be open around it. A list and an object
-- go on with what they hold so far, kept last first.
mutual

/-- The text of a value is read as its tree, whatever ends it. -/
theorem read_value (v : Value) (outer : List Frame) {rest : Glyphs} (hrest : EndsNumber rest) :
    (Position.value outer).read (tokens (before v.chars rest)) =
      (close v.node outer).followedBy (tokens rest) := by
  match v with
  | .null => rw [Value.chars, tokens_null, read_cons]; rfl
  | .bool true => rw [Value.chars, tokens_true, read_cons]; rfl
  | .bool false => rw [Value.chars, tokens_false, read_cons]; rfl
  | .number n => rw [Value.chars, tokens_number n hrest, read_cons]; rfl
  | .string s => rw [Value.chars, tokens_string, read_cons]; rfl
  | .list [] =>
    change (Position.value outer).read (tokens (some '[' :: some ']' :: rest)) = _
    rw [tokens_openList, read_cons, tokens_closeList]
    exact read_cons _ _ _
  | .list (v :: items) =>
    rw [Value.chars, before_append, before_cons, tokens_openList, read_cons]
    obtain ⟨after, hafter, hitems⟩ := exists_itemChars v items rest
    have hread := read_items (v :: items) (List.cons_ne_nil v items) [] outer rest
    calc (Position.firstItem outer).read
          (tokens (before (itemChars (v :: items)) (some ']' :: rest)))
        = (Position.value (.list [] :: outer)).read
            (tokens (before (itemChars (v :: items)) (some ']' :: rest))) := by
          rw [hitems]
          exact read_firstItem v hafter
      _ = (close (Value.list (v :: items)).node outer).followedBy (tokens rest) := hread
  | .object [] =>
    change (Position.value outer).read (tokens (some '\x7b' :: some '\x7d' :: rest)) = _
    rw [tokens_openObject, read_cons, tokens_closeObject]
    exact read_cons _ _ _
  | .object ((name, v) :: members) =>
    rw [Value.chars, before_append, before_cons, tokens_openObject, read_cons]
    have hread := read_members ((name, v) :: members) (List.cons_ne_nil _ _) [] outer rest
    calc (Position.firstKey outer).read
          (tokens (before (memberChars ((name, v) :: members)) (some '\x7d' :: rest)))
        = (Position.nextKey [] outer).read
            (tokens (before (memberChars ((name, v) :: members)) (some '\x7d' :: rest))) :=
          read_firstKey name v members _
      _ = (close (Value.object ((name, v) :: members)).node outer).followedBy (tokens rest) :=
          hread

theorem read_items (items : List Value) (hne : items ≠ []) (known : List Node)
    (outer : List Frame) (rest : Glyphs) :
    (Position.value (.list known :: outer)).read
        (tokens (before (itemChars items) (some ']' :: rest))) =
      (close (.list (known.reverse ++ itemNodes items) .closed) outer).followedBy
        (tokens rest) := by
  match items with
  | [] => exact absurd rfl hne
  | [v] =>
    rw [itemChars, read_value v _ (endsNumber_closeList rest)]
    change (Position.afterItem (v.node :: known) outer).read _ = _
    rw [tokens_closeList, read_cons]
    simp [Position.take, itemNodes]
  | v :: w :: items =>
    obtain ⟨after, hafter, hitems⟩ := exists_itemChars w items rest
    have hread := read_items (w :: items) (List.cons_ne_nil w items) (v.node :: known) outer rest
    rw [show itemChars (v :: w :: items) = v.chars ++ ',' :: itemChars (w :: items) from rfl,
      before_append, before_cons, read_value v _ (endsNumber_comma _)]
    change (Position.afterItem (v.node :: known) outer).read _ = _
    rw [tokens_comma, read_cons]
    change (Position.nextItem (v.node :: known) outer).read _ = _
    rw [hitems, read_nextItem w hafter, ← hitems, hread]
    simp [itemNodes]

theorem read_members (members : List (String × Value)) (hne : members ≠ [])
    (known : List (Key × Node)) (outer : List Frame) (rest : Glyphs) :
    (Position.nextKey known outer).read
        (tokens (before (memberChars members) (some '\x7d' :: rest))) =
      (close (.object (known.reverse ++ memberNodes members) .closed) outer).followedBy
        (tokens rest) := by
  match members with
  | [] => exact absurd rfl hne
  | [(name, v)] =>
    rw [memberChars, before_append, before_cons, read_nextKey,
      read_value v _ (endsNumber_closeObject rest)]
    change (Position.afterMember ((.ok name, v.node) :: known) outer).read _ = _
    rw [tokens_closeObject, read_cons]
    simp [Position.take, memberNodes]
  | (name, v) :: m :: members =>
    have hread := read_members (m :: members) (List.cons_ne_nil m members)
      ((.ok name, v.node) :: known) outer rest
    rw [show memberChars ((name, v) :: m :: members) =
        stringChars name ++ ':' :: v.chars ++ ',' :: memberChars (m :: members) from rfl,
      before_append, before_append, before_cons, before_cons, read_nextKey,
      read_value v _ (endsNumber_comma _)]
    change (Position.afterMember ((.ok name, v.node) :: known) outer).read _ = _
    rw [tokens_comma, read_cons]
    change (Position.nextKey ((.ok name, v.node) :: known) outer).read _ = _
    rw [hread]
    simp [memberNodes]

end

/-- The text of a value is a document with the value's tree. -/
theorem Document.ofString_text (v : Value) : Document.ofString v.text = ⟨v.node, true⟩ := by
  have hread := read_value v [] endsNumber_nil
  rw [Value.text, Document.ofString, glyphs_eq_before, String.toList_ofList, Document.ofGlyphs,
    hread, tokens]
  rfl

end Provisioning.Json
