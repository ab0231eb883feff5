-- Readers: each kind of value is read from its own text, a list is read item by item, and the
-- members of an object are taken up one after the other.
import Mathlib.Data.List.Forall2
import Provisioning.Json.Decode
import Provisioning.Proofs.Json.Reading

namespace Provisioning.Json

/-! ## Plain values -/

theorem liftFault_eq_ok_iff {α : Type} {x : Except SyntaxFault α} {a : α} :
    liftFault x = .ok a ↔ x = .ok a := by
  cases x <;> simp [liftFault]

theorem mismatch_ne_ok {α : Type} (expected : String) (node : Node) (a : α) :
    mismatch expected node ≠ .ok a := by
  cases node with
  | number literal => cases h : literal.toNumber <;> simp [mismatch, h, liftFault, Except.bind]
  | string text => cases text <;> simp [mismatch, liftFault, Except.bind]
  | _ => simp [mismatch]

theorem decodeString_eq_ok_iff {node : Node} {s : String} :
    decodeString node = .ok s ↔ node = .string (.ok s) := by
  cases node with
  | string text => simp [decodeString, liftFault_eq_ok_iff]
  | _ => simp [decodeString, mismatch_ne_ok]

theorem decodeString_node (s : String) : decodeString (Value.string s).node = .ok s := rfl

theorem decodeText?_node (s : Option String) :
    decodeOption decodeString (Value.ofText? s).node = .ok s := by
  cases s <;> rfl

section
variable {l : NumberLiteral}

theorem decodeDouble_of_toNumber {n : Number} (h : l.toNumber = .ok n) :
    decodeDouble (.number l) = .ok n.toDouble := by
  simp only [decodeDouble, h]
  rfl

theorem decodeUInt32_of_toNumber {n : Nat} (h : l.toNumber = .ok (.integer n)) (hn : n < 2 ^ 32) :
    decodeUInt32 (.number l) = .ok n := by
  have hbits : (0 : Int) ≤ n ∧ (n : Int) < UInt32.size := by
    unfold UInt32.size
    omega
  simp only [decodeUInt32, h, liftFault, Except.bind]
  rw [if_pos hbits, Int.toNat_natCast]

end

/-- A double is read from its own text, if its text is read as the double itself. -/
theorem decodeDouble_node {x : FiniteDouble} (h : (Number.float x).ReadsBack) :
    decodeDouble (Value.ofDouble (.finite x)).node = .ok (.finite x) :=
  decodeDouble_of_toNumber (Number.readsBack_iff.mp h)

/-- A natural number of 32 bits is read from its own text. -/
theorem decodeUInt32_node {n : Nat} (h : n < 2 ^ 32) : decodeUInt32 (Value.ofNat n).node = .ok n := by
  have hback : (Number.integer n).ReadsBack := Number.integer_readsBack ⟨by omega, by omega⟩
  exact decodeUInt32_of_toNumber (Number.readsBack_iff.mp hback) h

theorem ignore_of_isJson {node : Node} (h : node.IsJson) : ignore node = .ok () := by
  rw [ignore, node.skipFault?_of_isJson h]

/-! ## Lists -/

/-- A list is read if it is closed and each of its items is read, in their order. -/
theorem readItems_eq_ok_iff {α : Type} {reader : Node → Decoded α} {close : ListEnd}
    {items : List Node} {values : List α} :
    readItems reader close items = .ok values ↔
      close = .closed ∧ List.Forall₂ (fun node a => reader node = .ok a) items values := by
  induction items generalizing values with
  | nil =>
    rw [readItems, List.forall₂_nil_left_iff, ← ListEnd.readFault?_eq_none_iff]
    cases close.readFault? <;> simp [eq_comm]
  | cons node rest ih =>
    rw [readItems, List.forall₂_cons_left_iff]
    cases hnode : reader node with
    | error fault => simp
    | ok a =>
      simp only [map_eq_ok_iff, ih, Except.ok.injEq]
      constructor
      · rintro ⟨others, ⟨hclose, hothers⟩, rfl⟩
        exact ⟨hclose, a, others, rfl, hothers, rfl⟩
      · rintro ⟨hclose, -, others, rfl, hothers, rfl⟩
        exact ⟨others, ⟨hclose, hothers⟩, rfl⟩

theorem exists_forall₂_iff {α β : Type} {R : α → β → Prop} {xs : List α} :
    (∃ ys, List.Forall₂ R xs ys) ↔ ∀ x ∈ xs, ∃ y, R x y := by
  induction xs with
  | nil => simp
  | cons x rest ih =>
    rw [List.forall_mem_cons, ← ih]
    constructor
    · rintro ⟨ys, hall⟩
      obtain ⟨y, rest, hx, hrest, -⟩ := List.forall₂_cons_left_iff.mp hall
      exact ⟨⟨y, hx⟩, rest, hrest⟩
    · rintro ⟨⟨y, hx⟩, ys, hrest⟩
      exact ⟨y :: ys, .cons hx hrest⟩

theorem decodeList_eq_ok_iff {α : Type} {depth : Nat} {reader : Nat → Node → Decoded α}
    {node : Node} {values : List α} :
    decodeList depth reader node = .ok values ↔ 1 < depth ∧ ∃ items, node = .list items .closed ∧
      List.Forall₂ (fun item a => reader (depth - 1) item = .ok a) items values := by
  cases node with
  | list items close =>
    by_cases hdepth : depth ≤ 1
    · have hnone : ¬ 1 < depth := by omega
      simp [decodeList, hdepth, hnone]
    · have hlevels : 1 < depth := by omega
      simp only [decodeList, if_neg hdepth, readItems_eq_ok_iff]
      constructor
      · rintro ⟨rfl, hitems⟩
        exact ⟨hlevels, items, rfl, hitems⟩
      · rintro ⟨-, _, ⟨⟩, hitems⟩
        exact ⟨rfl, hitems⟩
  | _ => simp [decodeList, mismatch_ne_ok]

/-- A list of values is read from its own text, if each of them is. -/
theorem decodeList_node {α : Type} {reader : Nat → Node → Decoded α} {toJson : α → Value}
    {depth : Nat} (hdepth : 1 < depth) {items : List α}
    (h : ∀ a ∈ items, reader (depth - 1) (toJson a).node = .ok a) :
    decodeList depth reader (Value.list (items.map toJson)).node = .ok items := by
  apply decodeList_eq_ok_iff.mpr
  refine ⟨hdepth, itemNodes (items.map toJson), rfl, ?_⟩
  clear hdepth
  induction items with
  | nil => exact .nil
  | cons a items ih =>
    have hrest := ih fun b hb => h b (List.mem_cons_of_mem _ hb)
    exact .cons (h a List.mem_cons_self) hrest

theorem decodeOption_eq_ok_iff {α : Type} {reader : Node → Decoded α} {node : Node}
    {value : Option α} :
    decodeOption reader node = .ok value ↔
      (node = .null ∧ value = none) ∨
        (node ≠ .null ∧ ∃ a, reader node = .ok a ∧ value = some a) := by
  cases node with
  | null => simp [decodeOption, eq_comm]
  | _ => simp [decodeOption, map_eq_ok_iff, @eq_comm _ value]

/-! ## Members -/

section
variable {σ : Type} {reader : MemberReader σ} {close : ObjectEnd} {s next : σ} {name : String}
  {node : Node} {rest : List (Key × Node)}

/-- A member that is taken up changes what is held before the rest is read. -/
theorem readMembers_cons_eq_ok_iff {last : σ} {result : Decoded σ}
    (h : reader name s node = some result) :
    readMembers reader close s ((.ok name, node) :: rest) = .ok last ↔
      ∃ next, result = .ok next ∧ readMembers reader close next rest = .ok last := by
  simp only [readMembers, h]
  cases result <;> simp

theorem readMembers_of_known (h : reader name s node = some (.ok next)) :
    readMembers reader close s ((.ok name, node) :: rest) = readMembers reader close next rest := by
  simp only [readMembers, h]

theorem readMembers_of_unknown (h : reader name s node = none) (hnode : ignore node = .ok ()) :
    readMembers reader close s ((.ok name, node) :: rest) = readMembers reader close s rest := by
  simp only [readMembers, h, hnode]

/-- Nothing but the members with known names counts, whatever the others are. -/
theorem readMembers_membersWhere {p : String → Bool}
    (hunknown : ∀ name s node, p name = false → reader name s node = none)
    {members : List (Key × Node)} (h : MembersAreJson members) :
    readMembers reader close s members = readMembers reader close s (membersWhere p members) := by
  induction members generalizing s with
  | nil => rfl
  | cons m rest ih =>
    obtain ⟨key, node⟩ := m
    obtain ⟨⟨name, rfl⟩, hnode, hrest⟩ := h
    rw [membersWhere_cons]
    cases hname : p name with
    | false =>
      rw [readMembers_of_unknown (hunknown name s node hname) (ignore_of_isJson hnode)]
      exact ih hrest
    | true => simp only [readMembers, ih hrest, if_true]

end

end Provisioning.Json
