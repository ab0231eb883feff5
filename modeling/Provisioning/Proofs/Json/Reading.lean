-- What is read of a value as it is written: which values are read at all, and where the
-- members of an object end up. Of several members with one name the last is kept.
import Provisioning.Proofs.Json.Members
import Provisioning.Proofs.Json.Reread

namespace Provisioning.Json

/-! ## Values without a fault -/

mutual

/-- A value with no fault in it: every string spells a text, every list and object is closed. -/
def Node.IsJson : Node → Prop
  | .string text => ∃ s, text = .ok s
  | .list items close => ItemsAreJson items ∧ close = .closed
  | .object members close => MembersAreJson members ∧ close = .closed
  | .broken _ _ => False
  | _ => True

def ItemsAreJson : List Node → Prop
  | [] => True
  | node :: rest => node.IsJson ∧ ItemsAreJson rest

def MembersAreJson : List (Key × Node) → Prop
  | [] => True
  | (key, node) :: rest => (∃ name, key = .ok name) ∧ node.IsJson ∧ MembersAreJson rest

end

theorem itemsAreJson_iff {items : List Node} :
    ItemsAreJson items ↔ ∀ node ∈ items, node.IsJson := by
  induction items with
  | nil => simp [ItemsAreJson]
  | cons node rest ih => rw [ItemsAreJson, ih, List.forall_mem_cons]

/-- A text that is one value, with no fault in it and nothing behind it. -/
def Document.IsJson (d : Document) : Prop := d.root.IsJson ∧ d.ends = true

mutual

theorem Value.node_isJson (v : Value) : v.node.IsJson := by
  match v with
  | .null | .bool _ | .number _ => trivial
  | .string s => exact ⟨s, rfl⟩
  | .list items => exact ⟨itemNodes_areJson items, rfl⟩
  | .object members => exact ⟨memberNodes_areJson members, rfl⟩

theorem itemNodes_areJson (items : List Value) : ItemsAreJson (itemNodes items) := by
  match items with
  | [] => trivial
  | v :: items => exact ⟨v.node_isJson, itemNodes_areJson items⟩

theorem memberNodes_areJson (members : List (String × Value)) :
    MembersAreJson (memberNodes members) := by
  match members with
  | [] => trivial
  | (name, v) :: members => exact ⟨⟨name, rfl⟩, v.node_isJson, memberNodes_areJson members⟩

end

mutual

/-- Nothing is at fault in such a value, wherever it is passed over. -/
theorem Node.skipFault?_of_isJson {node : Node} (h : node.IsJson) : node.skipFault? = none := by
  match node with
  | .null | .bool _ | .number _ | .string _ => rfl
  | .list items close =>
    obtain ⟨hitems, rfl⟩ := h
    rw [Node.skipFault?, itemsSkipFault?_of_areJson hitems]
    rfl
  | .object members close =>
    obtain ⟨hmembers, rfl⟩ := h
    rw [Node.skipFault?, membersSkipFault?_of_areJson hmembers]
    rfl
  | .broken read skip => cases h

theorem itemsSkipFault?_of_areJson {items : List Node} (h : ItemsAreJson items) :
    itemsSkipFault? items = none := by
  match items with
  | [] => rfl
  | node :: rest =>
    rw [itemsSkipFault?, node.skipFault?_of_isJson h.1, itemsSkipFault?_of_areJson h.2]
    rfl

theorem membersSkipFault?_of_areJson {members : List (Key × Node)} (h : MembersAreJson members) :
    membersSkipFault? members = none := by
  match members with
  | [] => rfl
  | (key, node) :: rest =>
    rw [membersSkipFault?, node.skipFault?_of_isJson h.2.1, membersSkipFault?_of_areJson h.2.2]
    rfl

end

/-- The text of a value is without a fault. -/
theorem Document.isJson_text (v : Value) : (Document.ofString v.text).IsJson := by
  rw [Document.ofString_text]
  exact ⟨v.node_isJson, rfl⟩

/-! ## The values that are read -/

mutual

/-- How many lists and objects lie in each other. -/
def Node.height : Node → Nat
  | .list items _ => itemsHeight items + 1
  | .object members _ => membersHeight members + 1
  | _ => 0

def itemsHeight : List Node → Nat
  | [] => 0
  | node :: rest => max node.height (itemsHeight rest)

def membersHeight : List (Key × Node) → Nat
  | [] => 0
  | (_, node) :: rest => max node.height (membersHeight rest)

end

mutual

/-- Every number is one that can be kept: none lies past the doubles. -/
def Node.InRange : Node → Prop
  | .number literal => ∃ n, literal.toNumber = .ok n
  | .list items _ => ItemsInRange items
  | .object members _ => MembersInRange members
  | _ => True

def ItemsInRange : List Node → Prop
  | [] => True
  | node :: rest => node.InRange ∧ ItemsInRange rest

def MembersInRange : List (Key × Node) → Prop
  | [] => True
  | (_, node) :: rest => node.InRange ∧ MembersInRange rest

end

mutual

/-- A value without a fault is read if it is not too deep for the levels that are left and its
numbers are in range. -/
theorem exists_ofNode_iff {depth : Nat} (hdepth : 0 < depth) {node : Node} (h : node.IsJson) :
    (∃ v, Value.ofNode depth node = .ok v) ↔ node.height < depth ∧ node.InRange := by
  match node with
  | .null | .bool _ => simp [Value.ofNode, Node.height, Node.InRange, hdepth]
  | .number literal =>
    simp [Value.ofNode, map_eq_ok_iff, Node.height, Node.InRange, hdepth]
  | .string text =>
    obtain ⟨s, rfl⟩ := h
    simp [Value.ofNode, Except.map, Node.height, Node.InRange, hdepth]
  | .list items close =>
    obtain ⟨hitems, rfl⟩ := h
    simp only [ofNode_list_eq_ok_iff, Node.height, Node.InRange]
    have hread : 1 < depth → ((∃ values, itemValues (depth - 1) items = .ok values) ↔
        itemsHeight items < depth - 1 ∧ ItemsInRange items) :=
      fun hlevels => exists_itemValues_iff (by omega) hitems
    constructor
    · rintro ⟨-, hlevels, -, values, hvalues, -⟩
      obtain ⟨hheight, hrange⟩ := (hread hlevels).mp ⟨values, hvalues⟩
      exact ⟨by omega, hrange⟩
    · rintro ⟨hheight, hrange⟩
      obtain ⟨values, hvalues⟩ := (hread (by omega)).mpr ⟨by omega, hrange⟩
      exact ⟨.list values, by omega, rfl, values, hvalues, rfl⟩
  | .object members close =>
    obtain ⟨hmembers, rfl⟩ := h
    simp only [ofNode_object_eq_ok_iff, Node.height, Node.InRange]
    have hread : 1 < depth → ((∃ values, memberValues (depth - 1) members = .ok values) ↔
        membersHeight members < depth - 1 ∧ MembersInRange members) :=
      fun hlevels => exists_memberValues_iff (by omega) hmembers
    constructor
    · rintro ⟨-, hlevels, -, values, hvalues, -⟩
      obtain ⟨hheight, hrange⟩ := (hread hlevels).mp ⟨values, hvalues⟩
      exact ⟨by omega, hrange⟩
    · rintro ⟨hheight, hrange⟩
      obtain ⟨values, hvalues⟩ := (hread (by omega)).mpr ⟨by omega, hrange⟩
      exact ⟨_, by omega, rfl, values, hvalues, rfl⟩

theorem exists_itemValues_iff {depth : Nat} (hdepth : 0 < depth) {items : List Node}
    (h : ItemsAreJson items) :
    (∃ values, itemValues depth items = .ok values) ↔
      itemsHeight items < depth ∧ ItemsInRange items := by
  match items with
  | [] => simp [itemValues, itemsHeight, ItemsInRange, hdepth]
  | node :: rest =>
    have hnode := exists_ofNode_iff hdepth h.1
    have hrest := exists_itemValues_iff hdepth h.2
    simp only [itemValues_cons_eq_ok_iff, itemsHeight, ItemsInRange, Nat.max_lt]
    constructor
    · rintro ⟨-, value, others, hvalue, hothers, rfl⟩
      obtain ⟨hheight, hrange⟩ := hnode.mp ⟨value, hvalue⟩
      obtain ⟨hheights, hranges⟩ := hrest.mp ⟨others, hothers⟩
      exact ⟨⟨hheight, hheights⟩, hrange, hranges⟩
    · rintro ⟨⟨hheight, hheights⟩, hrange, hranges⟩
      obtain ⟨value, hvalue⟩ := hnode.mpr ⟨hheight, hrange⟩
      obtain ⟨others, hothers⟩ := hrest.mpr ⟨hheights, hranges⟩
      exact ⟨_, value, others, hvalue, hothers, rfl⟩

theorem exists_memberValues_iff {depth : Nat} (hdepth : 0 < depth) {members : List (Key × Node)}
    (h : MembersAreJson members) :
    (∃ values, memberValues depth members = .ok values) ↔
      membersHeight members < depth ∧ MembersInRange members := by
  match members with
  | [] => simp [memberValues, membersHeight, MembersInRange, hdepth]
  | (key, node) :: rest =>
    obtain ⟨⟨name, rfl⟩, hjson, hothers⟩ := h
    have hnode := exists_ofNode_iff hdepth hjson
    have hrest := exists_memberValues_iff hdepth hothers
    simp only [memberValues_cons_eq_ok_iff, membersHeight, MembersInRange, Nat.max_lt]
    constructor
    · rintro ⟨-, value, others, hvalue, hothers, rfl⟩
      obtain ⟨hheight, hrange⟩ := hnode.mp ⟨value, hvalue⟩
      obtain ⟨hheights, hranges⟩ := hrest.mp ⟨others, hothers⟩
      exact ⟨⟨hheight, hheights⟩, hrange, hranges⟩
    · rintro ⟨⟨hheight, hheights⟩, hrange, hranges⟩
      obtain ⟨value, hvalue⟩ := hnode.mpr ⟨hheight, hrange⟩
      obtain ⟨others, hothers⟩ := hrest.mpr ⟨hheights, hranges⟩
      exact ⟨_, value, others, hvalue, hothers, rfl⟩

end

/-- Members are read if each of their values is. -/
theorem exists_memberValues_iff_forall {depth : Nat} (hdepth : 0 < depth)
    {members : List (Key × Node)} (h : MembersAreJson members) :
    (∃ values, memberValues depth members = .ok values) ↔
      ∀ node ∈ members.map Prod.snd, node.height < depth ∧ node.InRange := by
  rw [exists_memberValues_iff hdepth h]
  clear h
  induction members with
  | nil => simp [membersHeight, MembersInRange, hdepth]
  | cons m rest ih =>
    simp only [membersHeight, MembersInRange, Nat.max_lt, List.map_cons, List.forall_mem_cons, ← ih]
    exact and_and_and_comm

theorem exists_ofNode_of_mem {depth : Nat} {members : List (Key × Node)} {values : Members}
    (h : memberValues depth members = .ok values) {m : Key × Node} (hm : m ∈ members) :
    ∃ v, Value.ofNode depth m.2 = .ok v := by
  induction members generalizing values with
  | nil => cases hm
  | cons n rest ih =>
    obtain ⟨key, node⟩ := n
    cases key with
    | error fault => cases h
    | ok name =>
      obtain ⟨value, others, hvalue, hothers, -⟩ := memberValues_cons_eq_ok_iff.mp h
      rcases List.mem_cons.mp hm with rfl | hm
      · exact ⟨value, hvalue⟩
      · exact ih hothers hm

/-! ## What a reading says of the text -/

theorem ListEnd.readFault?_eq_none_iff {close : ListEnd} :
    close.readFault? = none ↔ close = .closed := by
  cases close <;> simp [readFault?]

theorem ObjectEnd.readFault?_eq_none_iff {close : ObjectEnd} :
    close.readFault? = none ↔ close = .closed := by
  cases close <;> simp [readFault?]

mutual

/-- Only a value without a fault is read. -/
theorem Node.isJson_of_ofNode {depth : Nat} {node : Node} {v : Value}
    (h : Value.ofNode depth node = .ok v) : node.IsJson := by
  match node with
  | .null | .bool _ | .number _ => trivial
  | .string text =>
    obtain ⟨s, hs, -⟩ := map_eq_ok_iff.mp h
    exact ⟨s, hs⟩
  | .list items close =>
    obtain ⟨-, hclose, values, hvalues, -⟩ := ofNode_list_eq_ok_iff.mp h
    exact ⟨itemsAreJson_of_itemValues hvalues, ListEnd.readFault?_eq_none_iff.mp hclose⟩
  | .object members close =>
    obtain ⟨-, hclose, values, hvalues, -⟩ := ofNode_object_eq_ok_iff.mp h
    exact ⟨membersAreJson_of_memberValues hvalues, ObjectEnd.readFault?_eq_none_iff.mp hclose⟩
  | .broken read skip => cases h

theorem itemsAreJson_of_itemValues {depth : Nat} {items : List Node} {values : List Value}
    (h : itemValues depth items = .ok values) : ItemsAreJson items := by
  match items with
  | [] => trivial
  | node :: rest =>
    obtain ⟨value, others, hvalue, hothers, -⟩ := itemValues_cons_eq_ok_iff.mp h
    exact ⟨node.isJson_of_ofNode hvalue, itemsAreJson_of_itemValues hothers⟩

theorem membersAreJson_of_memberValues {depth : Nat} {members : List (Key × Node)}
    {values : Members} (h : memberValues depth members = .ok values) : MembersAreJson members := by
  match members with
  | [] => trivial
  | (.error fault, node) :: rest => cases h
  | (.ok name, node) :: rest =>
    obtain ⟨value, others, hvalue, hothers, -⟩ := memberValues_cons_eq_ok_iff.mp h
    exact ⟨⟨name, rfl⟩, node.isJson_of_ofNode hvalue, membersAreJson_of_memberValues hothers⟩

end

mutual

/-- With more levels left, a value is read as the same one. -/
theorem Value.ofNode_of_le {depth more : Nat} (hle : depth ≤ more) {node : Node} {v : Value}
    (h : Value.ofNode depth node = .ok v) : Value.ofNode more node = .ok v := by
  match node with
  | .null | .bool _ | .number _ | .string _ => exact h
  | .list items close =>
    obtain ⟨hlevels, hclose, values, hvalues, rfl⟩ := ofNode_list_eq_ok_iff.mp h
    apply ofNode_list_eq_ok_iff.mpr
    exact ⟨by omega, hclose, values, itemValues_of_le (by omega) hvalues, rfl⟩
  | .object members close =>
    obtain ⟨hlevels, hclose, values, hvalues, rfl⟩ := ofNode_object_eq_ok_iff.mp h
    apply ofNode_object_eq_ok_iff.mpr
    exact ⟨by omega, hclose, values, memberValues_of_le (by omega) hvalues, rfl⟩
  | .broken read skip => cases h

theorem itemValues_of_le {depth more : Nat} (hle : depth ≤ more) {items : List Node}
    {values : List Value} (h : itemValues depth items = .ok values) :
    itemValues more items = .ok values := by
  match items with
  | [] => exact h
  | node :: rest =>
    obtain ⟨value, others, hvalue, hothers, rfl⟩ := itemValues_cons_eq_ok_iff.mp h
    apply itemValues_cons_eq_ok_iff.mpr
    exact ⟨value, others, Value.ofNode_of_le hle hvalue, itemValues_of_le hle hothers, rfl⟩

theorem memberValues_of_le {depth more : Nat} (hle : depth ≤ more) {members : List (Key × Node)}
    {values : Members} (h : memberValues depth members = .ok values) :
    memberValues more members = .ok values := by
  match members with
  | [] => exact h
  | (.error fault, node) :: rest => cases h
  | (.ok name, node) :: rest =>
    obtain ⟨value, others, hvalue, hothers, rfl⟩ := memberValues_cons_eq_ok_iff.mp h
    apply memberValues_cons_eq_ok_iff.mpr
    exact ⟨value, others, Value.ofNode_of_le hle hvalue, memberValues_of_le hle hothers, rfl⟩

end

/-! ## The members of an object -/

/-- The members whose names are such, in their order. -/
def membersWhere (p : String → Bool) (members : List (Key × Node)) : List (Key × Node) :=
  members.filter fun m => m.1.toOption.any p

namespace Node

/-- The values of the members whose names are such, in their order. -/
def valuesWhere (p : String → Bool) : Node → List Node
  | .object members _ => (membersWhere p members).map Prod.snd
  | _ => []

/-- The values of the members with one of these names, in their order. -/
def valuesNamed (names : List String) (node : Node) : List Node :=
  node.valuesWhere fun name => name ∈ names

/-- The last member of a name. -/
def member? (name : String) (node : Node) : Option Node := (node.valuesNamed [name]).getLast?

end Node

theorem membersWhere_cons {p : String → Bool} {name : String} {node : Node}
    {rest : List (Key × Node)} :
    membersWhere p ((.ok name, node) :: rest) =
      if p name then (.ok name, node) :: membersWhere p rest else membersWhere p rest := by
  exact List.filter_cons

theorem mem_membersWhere {p : String → Bool} {members : List (Key × Node)} {m : Key × Node} :
    m ∈ membersWhere p members ↔ m ∈ members ∧ ∃ name, m.1 = .ok name ∧ p name = true := by
  unfold membersWhere
  rw [List.mem_filter]
  cases m.1 <;> simp [Except.toOption]

/-- A member that is found is a member with its name. -/
theorem Node.exists_of_member? {members : List (Key × Node)} {close : ObjectEnd} {name : String}
    {node : Node} (h : (Node.object members close).member? name = some node) :
    ∃ m ∈ members, m.1 = .ok name ∧ m.2 = node := by
  obtain ⟨m, hm, hnode⟩ := List.mem_map.mp (List.mem_of_getLast? h)
  obtain ⟨hmem, n, hkey, hname⟩ := mem_membersWhere.mp hm
  cases List.mem_singleton.mp (of_decide_eq_true hname)
  exact ⟨m, hmem, hkey, hnode⟩

/-- Of the members that are picked out, those with a name are the ones it was asked of. -/
theorem membersWhere_membersWhere {p q : String → Bool} {members : List (Key × Node)} :
    membersWhere p (membersWhere q members) = membersWhere (fun n => p n && q n) members := by
  unfold membersWhere
  rw [List.filter_filter]
  apply List.filter_congr
  intro m _
  cases m.1 <;> simp [Except.toOption]

theorem memberNodes_eq_map (members : Members) :
    memberNodes members = members.map fun m => (.ok m.1, m.2.node) := by
  induction members with
  | nil => rfl
  | cons m rest ih => rw [memberNodes, ih, List.map_cons]

/-- Members are picked out before they are written or after. -/
theorem membersWhere_memberNodes (p : String → Bool) (members : Members) :
    membersWhere p (memberNodes members) = memberNodes (members.filter fun m => p m.1) := by
  induction members with
  | nil => rfl
  | cons m rest ih =>
    rw [memberNodes, membersWhere_cons, ih, List.filter_cons]
    split <;> rfl

theorem Node.valuesWhere_cons {p : String → Bool} {name : String} {node : Node}
    {rest : List (Key × Node)} {close : ObjectEnd} :
    (Node.object ((.ok name, node) :: rest) close).valuesWhere p =
      if p name then node :: (Node.object rest close).valuesWhere p
      else (Node.object rest close).valuesWhere p := by
  simp only [valuesWhere, membersWhere_cons]
  split <;> rfl

theorem MembersAreJson.membersWhere {members : List (Key × Node)} (h : MembersAreJson members)
    (p : String → Bool) : MembersAreJson (membersWhere p members) := by
  induction members with
  | nil => trivial
  | cons m rest ih =>
    obtain ⟨key, node⟩ := m
    obtain ⟨⟨name, rfl⟩, hnode, hrest⟩ := h
    rw [membersWhere_cons]
    split
    · exact ⟨⟨name, rfl⟩, hnode, ih hrest⟩
    · exact ih hrest

/-- The values that are read of one name are those of its members, in their order. -/
theorem values_of_name {depth : Nat} {members : List (Key × Node)} {values : Members}
    (h : memberValues depth members = .ok values) (name : String) :
    ((values.filter fun m => m.1 = name).map Prod.snd).map Except.ok =
      ((membersWhere (fun n => n ∈ [name]) members).map Prod.snd).map (Value.ofNode depth) := by
  induction members generalizing values with
  | nil =>
    cases h
    rfl
  | cons m rest ih =>
    obtain ⟨key, node⟩ := m
    cases key with
    | error fault => cases h
    | ok n =>
      obtain ⟨value, others, hvalue, hothers, rfl⟩ := memberValues_cons_eq_ok_iff.mp h
      have hrest := ih hothers
      rw [membersWhere_cons]
      by_cases hname : n = name
      · simp [hname, hvalue, hrest]
      · simp [hname, hrest]

/-- Of the members with one name, the last is found. -/
theorem find?_ofList_eq_some_iff {depth : Nat} {members : List (Key × Node)} {values : Members}
    (h : memberValues depth members = .ok values) {name : String} {v : Value} :
    Members.find? (Members.ofList values) name = some v ↔
      ∃ node, ((membersWhere (fun n => n ∈ [name]) members).map Prod.snd).getLast? = some node ∧
        Value.ofNode depth node = .ok v := by
  have hlast : (Members.find? (Members.ofList values) name).map Except.ok =
      ((membersWhere (fun n => n ∈ [name]) members).map Prod.snd).getLast?.map
        (Value.ofNode depth) := by
    rw [Members.find?_ofList, ← List.getLast?_map, ← List.getLast?_map, values_of_name h name]
  constructor
  · intro hv
    rw [hv] at hlast
    exact Option.map_eq_some_iff.mp hlast.symm
  · rintro ⟨node, hnode, hv⟩
    rw [hnode, Option.map_some, hv] at hlast
    obtain ⟨w, hw, ⟨⟩⟩ := Option.map_eq_some_iff.mp hlast
    exact hw

/-! ## Values inside a value -/

theorem ofNode_eq_string_iff {depth : Nat} {node : Node} {s : String} :
    Value.ofNode depth node = .ok (.string s) ↔ node = .string (.ok s) := by
  cases node with
  | null => simp [Value.ofNode]
  | bool value => simp [Value.ofNode]
  | number literal => simp [Value.ofNode, map_eq_ok_iff]
  | string text => simp [Value.ofNode, map_eq_ok_iff]
  | list items close => simp [ofNode_list_eq_ok_iff]
  | object members close => simp [ofNode_object_eq_ok_iff]
  | broken read skip => simp [Value.ofNode]

/-- What is found in a value that has been read is what its last member of that name is read
as. Only an object has members. -/
theorem members?_find?_eq_some_iff {depth : Nat} {node : Node} {v : Value}
    (h : Value.ofNode depth node = .ok v) {name : String} {w : Value} :
    v.members?.bind (·.find? name) = some w ↔
      ∃ inner, node.member? name = some inner ∧ Value.ofNode (depth - 1) inner = .ok w := by
  have hnone (hv : v.members? = none) (hnode : node.member? name = none) :
      v.members?.bind (·.find? name) = some w ↔
        ∃ inner, node.member? name = some inner ∧ Value.ofNode (depth - 1) inner = .ok w := by
    simp [hv, hnode]
  cases node with
  | object members close =>
    obtain ⟨-, -, values, hvalues, rfl⟩ := ofNode_object_eq_ok_iff.mp h
    exact find?_ofList_eq_some_iff hvalues
  | null => cases h; exact hnone rfl rfl
  | bool value => cases h; exact hnone rfl rfl
  | number literal =>
    obtain ⟨n, -, rfl⟩ := map_eq_ok_iff.mp h
    exact hnone rfl rfl
  | string text =>
    obtain ⟨s, -, rfl⟩ := map_eq_ok_iff.mp h
    exact hnone rfl rfl
  | list items close =>
    obtain ⟨-, -, values, -, rfl⟩ := ofNode_list_eq_ok_iff.mp h
    exact hnone rfl rfl
  | broken read skip => cases h

end Provisioning.Json
