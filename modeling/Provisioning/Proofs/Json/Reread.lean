-- Reading a printed value. Integers of 64 bits and strings always come back; a double comes
-- back where its own text is read as the double itself, which is not so of all of them.
import Mathlib.Algebra.Group.Nat.Defs
import Provisioning.Proofs.Json.Members
import Provisioning.Proofs.Json.ValueText
import Provisioning.Proofs.Outcome
import Provisioning.Proofs.Text.Utf8

namespace Provisioning.Json

/-- The bytes of a text are the text. -/
theorem Document.ofBytes_utf8Bytes (text : String) :
    Document.ofBytes (utf8Bytes text) = .ofString text := by
  unfold ofBytes utf8Bytes
  rw [Utf8.decode_flatMap_utf8EncodeChar]
  rfl

/-- A document with nothing behind it is what its root is. -/
theorem Document.decode_of_ends {ε α : Type} {d : Document} (h : d.ends = true)
    (fault : SyntaxFault → ε) (reader : Node → Except ε α) :
    d.decode fault reader = reader d.root := by
  unfold decode
  rw [h]
  cases reader d.root <;> rfl

theorem Document.decode_eq_ok_iff {ε α : Type} {d : Document} {fault : SyntaxFault → ε}
    {reader : Node → Except ε α} {a : α} :
    d.decode fault reader = .ok a ↔ d.ends = true ∧ reader d.root = .ok a := by
  unfold decode
  cases d.ends <;> cases reader d.root <;> simp

theorem Document.decode_text {ε α : Type} (v : Value) (fault : SyntaxFault → ε)
    (reader : Node → Except ε α) :
    (Document.ofString v.text).decode fault reader = reader v.node := by
  rw [Document.ofString_text]
  exact Document.decode_of_ends rfl fault reader

/-! ## Numbers -/

/-- A number whose text is read as the number itself. -/
def Number.ReadsBack (n : Number) : Prop := (Document.ofString n.text).value = .ok (.number n)

theorem Number.readsBack_iff {n : Number} : n.ReadsBack ↔ n.literal.toNumber = .ok n := by
  have htext : (Value.number n).text = n.text := String.ofList_toList
  have hvalue : (Document.ofString n.text).value = n.literal.toNumber.map Value.number := by
    rw [← htext]
    exact Document.decode_text _ id _
  rw [ReadsBack, hvalue, map_eq_ok_iff]
  simp

/-- Two and a half, which is read back. -/
def twoAndAHalf : FiniteDouble where
  negative := false
  mantissa := 5 * 2 ^ 50
  scale := 1023
  normal := by decide

theorem twoAndAHalf_readsBack : (Number.float twoAndAHalf).ReadsBack :=
  Number.readsBack_iff.mpr (by decide +kernel)

/-- Digits of a value of 64 bits are all taken in. -/
theorem gather_of_lt {ds : List Nat} {n : Nat}
    (h : ds.foldl (fun n d => n * 10 + d) n < 2 ^ 64) :
    gather n ds = (ds.foldl (fun n d => n * 10 + d) n, []) := by
  induction ds generalizing n with
  | nil => rfl
  | cons d ds ih =>
    have hgrows : ∀ (ds : List Nat) (n : Nat), n ≤ ds.foldl (fun n d => n * 10 + d) n := by
      intro ds
      induction ds with
      | nil => exact fun n => Nat.le_refl n
      | cons d ds ih => exact fun n => Nat.le_trans (by omega) (ih (n * 10 + d))
    have hfits : n * 10 + d < UInt64.size := Nat.lt_of_le_of_lt (hgrows ds _) h
    rw [gather, if_pos hfits]
    exact ih h

theorem gather_decimalDigits {n : Nat} (h : n < 2 ^ 64) : gather 0 (decimalDigits n) = (n, []) := by
  have hvalue : (decimalDigits n).foldl (fun n d => n * 10 + d) 0 = n := digitsValue_decimalDigits n
  rw [gather_of_lt (by rwa [hvalue]), hvalue]

section
variable {l : NumberLiteral} {n : Nat} (hwhole : l.isWhole = true)
  (hgather : gather 0 l.whole = (n, []))
include hwhole hgather

theorem NumberLiteral.toNumber_of_unsigned (hsign : l.negative = false) :
    l.toNumber = .ok (.integer n) := by
  unfold toNumber
  rw [hgather]
  dsimp only
  rw [if_pos ⟨hwhole, rfl, hsign⟩]

theorem NumberLiteral.toNumber_of_signed (hsign : l.negative = true) (hn : n ≠ 0)
    (hbits : n ≤ 2 ^ 63) : l.toNumber = .ok (.integer (-n)) := by
  unfold toNumber
  rw [hgather]
  dsimp only
  rw [if_neg (by simp [hsign]), if_pos ⟨hwhole, rfl, hn, hbits⟩]

end

/-- The integers that are kept as integers: those of 64 bits, signed or not. -/
def HasBits (n : Int) : Prop := -(2 ^ 63 : Nat) ≤ n ∧ n < (2 ^ 64 : Nat)

theorem Number.integer_readsBack {n : Int} (h : HasBits n) : (Number.integer n).ReadsBack := by
  obtain ⟨hlow, hhigh⟩ := h
  have hgather : gather 0 (literal (.integer n)).whole = (n.natAbs, []) :=
    gather_decimalDigits (by omega)
  rw [readsBack_iff]
  by_cases hn : n < 0
  · have hread := NumberLiteral.toNumber_of_signed rfl hgather (decide_eq_true hn) (by omega)
      (by omega)
    rw [hread, show -(n.natAbs : Int) = n by omega]
  · have hread := NumberLiteral.toNumber_of_unsigned rfl hgather (decide_eq_false hn)
    rw [hread, show (n.natAbs : Int) = n by omega]

theorem gather_lt {n : Nat} (h : n < 2 ^ 64) (ds : List Nat) : (gather n ds).1 < 2 ^ 64 := by
  induction ds generalizing n with
  | nil => exact h
  | cons d ds ih =>
    unfold gather
    split
    · exact ih ‹_›
    · exact h

/-- An integer that has been read has 64 bits. -/
theorem NumberLiteral.hasBits_of_toNumber {l : NumberLiteral} {n : Int}
    (h : l.toNumber = .ok (.integer n)) : HasBits n := by
  have hlt := gather_lt (show 0 < 2 ^ 64 by decide) l.whole
  unfold toNumber UInt64.size at h
  dsimp only at h
  unfold HasBits
  split at h
  · simp only [Except.ok.injEq, Number.integer.injEq] at h
    omega
  · split at h
    · simp only [Except.ok.injEq, Number.integer.injEq] at h
      omega
    · split at h <;> simp at h

/-! ## Values -/

mutual

/-- The doubles in a value. -/
def Value.doubles : Value → List FiniteDouble
  | .number (.float x) => [x]
  | .list items => itemDoubles items
  | .object members => memberDoubles members
  | _ => []

def itemDoubles : List Value → List FiniteDouble
  | [] => []
  | value :: rest => value.doubles ++ itemDoubles rest

def memberDoubles : List (String × Value) → List FiniteDouble
  | [] => []
  | (_, value) :: rest => value.doubles ++ memberDoubles rest

end

/-- The text of each of these doubles is read as the double itself. -/
def ReadBack (doubles : List FiniteDouble) : Prop := ∀ x ∈ doubles, (Number.float x).ReadsBack

theorem readBack_append {xs ys : List FiniteDouble} :
    ReadBack (xs ++ ys) ↔ ReadBack xs ∧ ReadBack ys := List.forall_mem_append

theorem readBack_of_member {members : Members} {m : String × Value}
    (h : ReadBack (memberDoubles members)) (hm : m ∈ members) : ReadBack m.2.doubles := by
  induction members with
  | nil => cases hm
  | cons n members ih =>
    obtain ⟨hfirst, hrest⟩ := readBack_append.mp h
    rcases List.mem_cons.mp hm with rfl | hm
    · exact hfirst
    · exact ih hrest hm

theorem ofNode_number {depth : Nat} {l : NumberLiteral} {n : Number} (h : l.toNumber = .ok n) :
    Value.ofNode depth (.number l) = .ok (.number n) :=
  map_eq_ok_iff.mpr ⟨n, h, rfl⟩

theorem itemValues_cons_eq_ok_iff {depth : Nat} {node : Node} {rest : List Node}
    {values : List Value} :
    itemValues depth (node :: rest) = .ok values ↔
      ∃ value others, Value.ofNode depth node = .ok value ∧
        itemValues depth rest = .ok others ∧ values = value :: others := by
  have hchain : itemValues depth (node :: rest) =
      (Value.ofNode depth node >>= fun value => (itemValues depth rest).map (value :: ·)) := by
    rw [itemValues]
    cases Value.ofNode depth node <;> rfl
  rw [hchain, bind_map_eq_ok_iff]

theorem memberValues_cons_eq_ok_iff {depth : Nat} {name : String} {node : Node}
    {rest : List (Key × Node)} {values : Members} :
    memberValues depth ((.ok name, node) :: rest) = .ok values ↔
      ∃ value others, Value.ofNode depth node = .ok value ∧
        memberValues depth rest = .ok others ∧ values = (name, value) :: others := by
  have hchain : memberValues depth ((.ok name, node) :: rest) =
      (Value.ofNode depth node >>= fun value =>
        (memberValues depth rest).map ((name, value) :: ·)) := by
    rw [memberValues]
    cases Value.ofNode depth node <;> rfl
  rw [hchain, bind_map_eq_ok_iff]

/-- Members whose values are each read from their trees are read together. -/
theorem memberValues_memberNodes {depth : Nat} {members : Members}
    (h : ∀ m ∈ members, Value.ofNode depth m.2.node = .ok m.2) :
    memberValues depth (memberNodes members) = .ok members := by
  induction members with
  | nil => rfl
  | cons m members ih =>
    have hrest := ih fun n hn => h n (List.mem_cons_of_mem _ hn)
    exact memberValues_cons_eq_ok_iff.mpr ⟨m.2, members, h m List.mem_cons_self, hrest, rfl⟩

/-- What a list or an object is read from has an end, and levels are left for it. -/
theorem ofNode_list_eq_ok_iff {depth : Nat} {items : List Node} {close : ListEnd} {v : Value} :
    Value.ofNode depth (.list items close) = .ok v ↔
      1 < depth ∧ close.readFault? = none ∧
        ∃ values, itemValues (depth - 1) items = .ok values ∧ v = .list values := by
  unfold Value.ofNode
  by_cases hdepth : depth ≤ 1
  · have hnone : ¬ 1 < depth := by omega
    simp [hdepth, hnone]
  · have hlevels : 1 < depth := by omega
    rw [if_neg hdepth]
    cases itemValues (depth - 1) items with
    | error fault => simp
    | ok values => cases close.readFault? <;> simp [hlevels, eq_comm]

theorem ofNode_object_eq_ok_iff {depth : Nat} {members : List (Key × Node)} {close : ObjectEnd}
    {v : Value} :
    Value.ofNode depth (.object members close) = .ok v ↔
      1 < depth ∧ close.readFault? = none ∧
        ∃ values, memberValues (depth - 1) members = .ok values ∧
          v = .object (Members.ofList values) := by
  unfold Value.ofNode
  by_cases hdepth : depth ≤ 1
  · have hnone : ¬ 1 < depth := by omega
    simp [hdepth, hnone]
  · have hlevels : 1 < depth := by omega
    rw [if_neg hdepth]
    cases memberValues (depth - 1) members with
    | error fault => simp
    | ok values => cases close.readFault? <;> simp [hlevels, eq_comm]

mutual

/-- A value that has been read is read again from its own text, if its doubles are. -/
theorem Value.ofNode_node {depth : Nat} (node : Node) {v : Value}
    (h : Value.ofNode depth node = .ok v) (hdoubles : ReadBack v.doubles) :
    Value.ofNode depth v.node = .ok v := by
  match node with
  | .null => cases h; rfl
  | .bool value => cases h; rfl
  | .number literal =>
    obtain ⟨n, hn, rfl⟩ := map_eq_ok_iff.mp h
    have hback : n.ReadsBack := by
      cases n with
      | integer n => exact Number.integer_readsBack (NumberLiteral.hasBits_of_toNumber hn)
      | float x => exact hdoubles x List.mem_cons_self
    exact ofNode_number (Number.readsBack_iff.mp hback)
  | .string text =>
    obtain ⟨s, rfl, rfl⟩ := map_eq_ok_iff.mp h
    rfl
  | .list items close =>
    obtain ⟨hdepth, -, values, hvalues, rfl⟩ := ofNode_list_eq_ok_iff.mp h
    have hread := itemValues_itemNodes items hvalues hdoubles
    exact ofNode_list_eq_ok_iff.mpr ⟨hdepth, rfl, values, hread, rfl⟩
  | .object members close =>
    obtain ⟨hdepth, -, values, hvalues, rfl⟩ := ofNode_object_eq_ok_iff.mp h
    -- The members are kept sorted, so they come back one by one and not as they were read.
    have hmembers := memberValues_each members hvalues
    have hread : memberValues (depth - 1) (memberNodes (Members.ofList values)) =
        .ok (Members.ofList values) :=
      memberValues_memberNodes fun m hm =>
        hmembers m (Members.mem_ofList hm) (readBack_of_member hdoubles hm)
    refine ofNode_object_eq_ok_iff.mpr ⟨hdepth, rfl, _, hread, ?_⟩
    rw [Members.ofList_of_sorted (Members.ofList_sorted values)]
  | .broken read skip => cases h

theorem itemValues_itemNodes {depth : Nat} (items : List Node) {values : List Value}
    (h : itemValues depth items = .ok values) (hdoubles : ReadBack (itemDoubles values)) :
    itemValues depth (itemNodes values) = .ok values := by
  match items with
  | [] => cases h; rfl
  | node :: rest =>
    obtain ⟨value, others, hvalue, hothers, rfl⟩ := itemValues_cons_eq_ok_iff.mp h
    obtain ⟨hfirst, hrest⟩ := readBack_append.mp hdoubles
    have hagain := Value.ofNode_node node hvalue hfirst
    exact itemValues_cons_eq_ok_iff.mpr
      ⟨value, others, hagain, itemValues_itemNodes rest hothers hrest, rfl⟩

theorem memberValues_each {depth : Nat} (nodes : List (Key × Node)) {members : Members}
    (h : memberValues depth nodes = .ok members) :
    ∀ m ∈ members, ReadBack m.2.doubles → Value.ofNode depth m.2.node = .ok m.2 := by
  match nodes with
  | [] => cases h; nofun
  | (.error fault, node) :: rest => cases h
  | (.ok name, node) :: rest =>
    obtain ⟨value, others, hvalue, hothers, rfl⟩ := memberValues_cons_eq_ok_iff.mp h
    intro m hm hdoubles
    rcases List.mem_cons.mp hm with rfl | hm
    · exact Value.ofNode_node node hvalue hdoubles
    · exact memberValues_each rest hothers m hm hdoubles

end

/-! ## Doubles that have to come back -/

/-- The names of printed members are read as they stand. -/
theorem memberValues_names {depth : Nat} {members values : Members}
    (h : memberValues depth (memberNodes members) = .ok values) :
    values.map Prod.fst = members.map Prod.fst := by
  induction members generalizing values with
  | nil =>
    cases h
    rfl
  | cons m rest ih =>
    obtain ⟨value, others, -, hothers, rfl⟩ := memberValues_cons_eq_ok_iff.mp h
    rw [List.map_cons, List.map_cons, ih hothers]

/-- Printed members that come back in order come back one by one. -/
theorem memberValues_eq_self {depth : Nat} {members values : Members}
    (h : memberValues depth (memberNodes members) = .ok values)
    (hsame : members = Members.ofList values) : values = members := by
  have hsorted : Members.Sorted values := by
    have hmembers : Members.Sorted members := hsame ▸ Members.ofList_sorted values
    unfold Members.Sorted at hmembers ⊢
    rw [← List.pairwise_map (f := Prod.fst) (R := (· < ·))] at hmembers ⊢
    rwa [memberValues_names h]
  rw [hsame, Members.ofList_of_sorted hsorted]

mutual

/-- Where a value is read again from its own text, its doubles are read back. -/
theorem Value.readBack_doubles {depth : Nat} (v : Value)
    (h : Value.ofNode depth v.node = .ok v) : ReadBack v.doubles := by
  match v with
  | .null | .bool _ | .string _ | .number (.integer _) => exact nofun
  | .number (.float x) =>
    obtain ⟨n, hn, hsame⟩ := map_eq_ok_iff.mp h
    cases hsame
    intro y hy
    cases List.mem_singleton.mp hy
    exact Number.readsBack_iff.mpr hn
  | .list items =>
    obtain ⟨-, -, values, hvalues, hsame⟩ := ofNode_list_eq_ok_iff.mp h
    cases hsame
    exact itemDoubles_readBack items hvalues
  | .object members =>
    obtain ⟨-, -, values, hvalues, hsame⟩ := ofNode_object_eq_ok_iff.mp h
    have heq := memberValues_eq_self hvalues (Value.object.inj hsame)
    exact memberDoubles_readBack members (heq ▸ hvalues)

theorem itemDoubles_readBack {depth : Nat} (items : List Value)
    (h : itemValues depth (itemNodes items) = .ok items) : ReadBack (itemDoubles items) := by
  match items with
  | [] => exact nofun
  | v :: rest =>
    obtain ⟨value, others, hvalue, hothers, hsame⟩ := itemValues_cons_eq_ok_iff.mp h
    cases hsame
    exact readBack_append.mpr ⟨v.readBack_doubles hvalue, itemDoubles_readBack rest hothers⟩

theorem memberDoubles_readBack {depth : Nat} (members : Members)
    (h : memberValues depth (memberNodes members) = .ok members) :
    ReadBack (memberDoubles members) := by
  match members with
  | [] => exact nofun
  | (name, v) :: rest =>
    obtain ⟨value, others, hvalue, hothers, hsame⟩ := memberValues_cons_eq_ok_iff.mp h
    cases hsame
    exact readBack_append.mpr ⟨v.readBack_doubles hvalue, memberDoubles_readBack rest hothers⟩

end

end Provisioning.Json
