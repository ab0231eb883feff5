-- Reading a record, member by member: which objects are records, where each member goes, and
-- that a record that is printed is read again.
import Provisioning.Application.Json
import Provisioning.Proofs.Json.Decode
import Provisioning.Proofs.Json.Reading

namespace Provisioning

open Json

namespace Application

/-! ## The fields that are texts -/

/-- A field of a record that holds a text. -/
inductive TextField
  | guid
  | name
  | space
  | org
deriving DecidableEq

namespace TextField

def label : TextField → String
  | guid => "guid"
  | name => "name"
  | space => "space"
  | org => "org"

/-- The names that a field goes by. The identifier has two. -/
def names : TextField → List String
  | guid => ["guid", "id"]
  | field => [field.label]

def get : TextField → Given → Option String
  | guid => Given.guid
  | name => Given.name
  | space => Given.space
  | org => Given.org

def set (text : Option String) (g : Given) : TextField → Given
  | guid => { g with guid := text }
  | name => { g with name := text }
  | space => { g with space := text }
  | org => { g with org := text }

theorem get_set (text : Option String) (g : Given) (field other : TextField) :
    other.get (field.set text g) = if other = field then text else other.get g := by
  cases field <;> cases other <;> rfl

theorem extra_set (text : Option String) (g : Given) (field : TextField) :
    (field.set text g).extra = g.extra := by
  cases field <;> rfl

theorem eq_of_mem_names {field other : TextField} {n : String} (h : n ∈ field.names)
    (hother : n ∈ other.names) : other = field := by
  cases field <;> cases other <;> simp_all [names, label]

end TextField

/-- The names that have a field of their own. -/
def fixedNames : List String := ["guid", "id", "name", "space", "org"]

theorem mem_fixedNames {n : String} : n ∈ fixedNames ↔ ∃ field : TextField, n ∈ field.names := by
  constructor
  · intro h
    simp only [fixedNames, List.mem_cons, List.not_mem_nil, or_false] at h
    rcases h with rfl | rfl | rfl | rfl | rfl
    · exact ⟨.guid, by decide⟩
    · exact ⟨.guid, by decide⟩
    · exact ⟨.name, by decide⟩
    · exact ⟨.space, by decide⟩
    · exact ⟨.org, by decide⟩
  · rintro ⟨field, h⟩
    cases field <;> simp_all [TextField.names, TextField.label, fixedNames]
    exact h.imp_right .inl

/-! ## One member -/

theorem Given.read_of_text {depth : Nat} {field : TextField} {n : String} (h : n ∈ field.names)
    (g : Given) (node : Node) :
    Given.read depth n g node =
      some ((readField field.label (field.get g) decodeString node).map (field.set · g)) := by
  cases field with
  | guid =>
    simp only [TextField.names, List.mem_cons, List.not_mem_nil, or_false] at h
    rcases h with rfl | rfl <;> rfl
  | name => cases List.mem_singleton.mp h; rfl
  | space => cases List.mem_singleton.mp h; rfl
  | org => cases List.mem_singleton.mp h; rfl

theorem Given.read_of_other {depth : Nat} {n : String} (h : n ∉ fixedNames) (g : Given)
    (node : Node) :
    Given.read depth n g node =
      some ((liftFault (Value.ofNode depth node)).map fun v =>
        { g with extra := g.extra.insert n v }) := by
  simp only [fixedNames, List.mem_cons, List.not_mem_nil, or_false, not_or] at h
  simp [read, h]

/-- A text that may be missing, as the list of its members. -/
def textNodes (text : Option String) : List Node := (text.map fun s => .string (.ok s)).toList

/-- A field takes up a member where it holds nothing yet and the member is a string. -/
theorem readField_eq_ok_iff {label : String} {known : Option String} {node : Node}
    {next : Option String} :
    readField label known decodeString node = .ok next ↔
      known = none ∧ ∃ s, node = .string (.ok s) ∧ next = some s := by
  cases known with
  | some s => simp [readField]
  | none =>
    rw [readField, map_eq_ok_iff]
    simp only [decodeString_eq_ok_iff, true_and]
    constructor
    · rintro ⟨s, hnode, rfl⟩
      exact ⟨s, hnode, rfl⟩
    · rintro ⟨s, hnode, rfl⟩
      exact ⟨s, hnode, rfl⟩

/-- What a field holds and the members that are still to come make one text at most. -/
theorem textNodes_append_cons (label : String) {known last : Option String} {node : Node}
    {rest : List Node} :
    textNodes known ++ node :: rest = textNodes last ↔
      ∃ next, readField label known decodeString node = .ok next ∧
        textNodes next ++ rest = textNodes last := by
  simp only [readField_eq_ok_iff]
  cases known <;> cases last <;> simp [textNodes]

/-! ## All members -/

/-- Writes members one after the other. -/
def writeAll (values known : Members) : Members :=
  values.foldl (fun known m => Members.insert m.1 m.2 known) known

/-- What the members of an object make of what was known: the fields are filled, and all
others are written down in turn. -/
structure Given.Becomes (depth : Nat) (g : Given) (members : List (Key × Node)) (last : Given) :
    Prop where
  texts : ∀ field : TextField, textNodes (field.get g) ++
    (Node.object members .closed).valuesNamed field.names = textNodes (field.get last)
  extra : ∃ values, last.extra = writeAll values g.extra ∧
    memberValues depth (membersWhere (fun n => n ∉ fixedNames) members) = .ok values

theorem valuesNamed_cons {names : List String} {n : String} {node : Node}
    {rest : List (Key × Node)} {close : ObjectEnd} :
    (Node.object ((.ok n, node) :: rest) close).valuesNamed names =
      if n ∈ names then node :: (Node.object rest close).valuesNamed names
      else (Node.object rest close).valuesNamed names := by
  simp [Node.valuesNamed, Node.valuesWhere_cons]

section
variable {depth : Nat} {n : String} {node : Node} {rest : List (Key × Node)} {g last : Given}

theorem Given.becomes_text {field : TextField} (h : n ∈ field.names) :
    g.Becomes depth ((.ok n, node) :: rest) last ↔
      ∃ text, readField field.label (field.get g) decodeString node = .ok text ∧
        (field.set text g).Becomes depth rest last := by
  have hother : membersWhere (fun n => n ∉ fixedNames) ((.ok n, node) :: rest) =
      membersWhere (fun n => n ∉ fixedNames) rest := by
    have hfixed := mem_fixedNames.mpr ⟨field, h⟩
    rw [membersWhere_cons, if_neg (by simpa using hfixed)]
  have hnames : ∀ other : TextField, n ∈ other.names ↔ other = field := by
    intro other
    constructor
    · exact TextField.eq_of_mem_names h
    · rintro rfl
      exact h
  constructor
  · rintro ⟨htexts, hextra⟩
    have hfield := htexts field
    rw [valuesNamed_cons, if_pos h, textNodes_append_cons field.label] at hfield
    obtain ⟨text, hread, hrest⟩ := hfield
    refine ⟨text, hread, fun other => ?_, by rwa [hother, ← TextField.extra_set text g field] at hextra⟩
    rw [TextField.get_set]
    by_cases hsame : other = field
    · rw [if_pos hsame, hsame]
      exact hrest
    · have := htexts other
      rw [if_neg hsame]
      rwa [valuesNamed_cons, if_neg (mt (hnames other).mp hsame)] at this
  · rintro ⟨text, hread, htexts, hextra⟩
    refine ⟨fun other => ?_, by rwa [hother, ← TextField.extra_set text g field]⟩
    have hrest := htexts other
    rw [TextField.get_set] at hrest
    rw [valuesNamed_cons]
    by_cases hsame : other = field
    · subst hsame
      rw [if_pos rfl] at hrest
      rw [if_pos h, textNodes_append_cons other.label]
      exact ⟨text, hread, hrest⟩
    · rw [if_neg hsame] at hrest
      rwa [if_neg (mt (hnames other).mp hsame)]

theorem Given.becomes_other (h : n ∉ fixedNames) :
    g.Becomes depth ((.ok n, node) :: rest) last ↔
      ∃ v, Value.ofNode depth node = .ok v ∧
        { g with extra := g.extra.insert n v : Given }.Becomes depth rest last := by
  have hnames : ∀ field : TextField, n ∉ field.names := by
    intro field hmem
    exact h (mem_fixedNames.mpr ⟨field, hmem⟩)
  have hget : ∀ (field : TextField) (extra : Members),
      field.get { g with extra } = field.get g := by
    intro field extra
    cases field <;> rfl
  have hother : membersWhere (fun n => n ∉ fixedNames) ((.ok n, node) :: rest) =
      (.ok n, node) :: membersWhere (fun n => n ∉ fixedNames) rest := by
    rw [membersWhere_cons, if_pos (by simpa using h)]
  constructor
  · rintro ⟨htexts, values, hextra, hvalues⟩
    rw [hother] at hvalues
    obtain ⟨v, others, hv, hothers, rfl⟩ := memberValues_cons_eq_ok_iff.mp hvalues
    refine ⟨v, hv, fun field => ?_, others, hextra, hothers⟩
    have := htexts field
    rw [valuesNamed_cons, if_neg (hnames field)] at this
    rwa [hget]
  · rintro ⟨v, hv, htexts, others, hextra, hothers⟩
    refine ⟨fun field => ?_, (n, v) :: others, hextra, ?_⟩
    · have := htexts field
      rw [hget] at this
      rwa [valuesNamed_cons, if_neg (hnames field)]
    · rw [hother]
      exact memberValues_cons_eq_ok_iff.mpr ⟨v, others, hv, hothers, rfl⟩

theorem textNodes_inj {a b : Option String} : textNodes a = textNodes b ↔ a = b := by
  cases a <;> cases b <;> simp [textNodes]

theorem Given.becomes_nil : g.Becomes depth [] last ↔ last = g := by
  constructor
  · rintro ⟨htexts, values, hextra, ⟨⟩⟩
    have hget : ∀ field : TextField, field.get g = field.get last := by
      intro field
      have := htexts field
      rw [show (Node.object [] .closed).valuesNamed field.names = [] from rfl, List.append_nil] at this
      exact textNodes_inj.mp this
    have hguid := hget .guid
    have hname := hget .name
    have hspace := hget .space
    have horg := hget .org
    cases g
    cases last
    simp_all [TextField.get, writeAll]
  · rintro rfl
    exact ⟨fun field => List.append_nil _, [], rfl, rfl⟩

end

/-- The members that are read fill the fields, and all others are written down in turn. -/
theorem Given.readMembers_eq_ok_iff {depth : Nat} {members : List (Key × Node)}
    (h : MembersAreJson members) {g last : Given} :
    readMembers (Given.read depth) .closed g members = .ok last ↔
      g.Becomes depth members last := by
  -- On the members, over all that may be known before them.
  induction members generalizing g with
  | nil =>
    rw [becomes_nil]
    change Except.ok g = .ok last ↔ _
    rw [Except.ok.injEq, eq_comm]
  | cons m rest ih =>
    obtain ⟨key, node⟩ := m
    obtain ⟨⟨n, rfl⟩, -, hrest⟩ := h
    by_cases hfixed : n ∈ fixedNames
    · obtain ⟨field, hname⟩ := mem_fixedNames.mp hfixed
      rw [readMembers_cons_eq_ok_iff (read_of_text hname g node), becomes_text hname]
      simp only [map_eq_ok_iff]
      constructor
      · rintro ⟨-, ⟨text, htext, rfl⟩, hread⟩
        exact ⟨text, htext, (ih hrest).mp hread⟩
      · rintro ⟨text, htext, hbecomes⟩
        exact ⟨_, ⟨text, htext, rfl⟩, (ih hrest).mpr hbecomes⟩
    · rw [readMembers_cons_eq_ok_iff (read_of_other hfixed g node), becomes_other hfixed]
      simp only [map_eq_ok_iff, liftFault_eq_ok_iff]
      constructor
      · rintro ⟨-, ⟨v, hv, rfl⟩, hread⟩
        exact ⟨v, hv, (ih hrest).mp hread⟩
      · rintro ⟨v, hv, hbecomes⟩
        exact ⟨_, ⟨v, hv, rfl⟩, (ih hrest).mpr hbecomes⟩

/-! ## The record -/

/-- An object with one identifier, and with each of the other texts once at most. -/
structure HasTexts (root : Node) : Prop where
  isObject : ∃ members, root = .object members .closed
  guid : ∃ s, root.valuesNamed ["guid", "id"] = [.string (.ok s)]
  texts : ∀ name ∈ ["name", "space", "org"],
    root.valuesNamed [name] = [] ∨ ∃ s, root.valuesNamed [name] = [.string (.ok s)]

/-- The object that a record is read from. What is kept as it stands is not too deep and in
range. -/
structure IsRecord (root : Node) : Prop extends HasTexts root where
  others : ∀ node ∈ root.valuesWhere (fun n => n ∉ fixedNames),
    node.height < depthLimit - 1 ∧ node.InRange

/-- A text is the value of the one member of a name, or empty if there is none. -/
def IsTextOf (text name : String) (root : Node) : Prop :=
  root.valuesNamed [name] = [.string (.ok text)] ∨ root.valuesNamed [name] = [] ∧ text = ""

/-- What a record tells of the object that it was read from. -/
structure Tells (a : Application) (root : Node) : Prop where
  guid : root.valuesNamed ["guid", "id"] = [.string (.ok a.guid)]
  name : IsTextOf a.name "name" root
  space : IsTextOf a.space "space" root
  org : IsTextOf a.org "org" root
  sorted : Members.Sorted a.extra
  extra : ∀ name v, Members.find? a.extra name = some v ↔ name ∉ fixedNames ∧
    ∃ node, root.member? name = some node ∧ Value.ofNode (depthLimit - 1) node = .ok v
  metadata : ∀ key field s, a.metadataText key field = some s ↔
    (root.member? key).bind (·.member? field) = some (.string (.ok s))

/-- A record is what its members come to, once the identifier is there. -/
theorem ofNode_eq_ok_iff {depth : Nat} (hdepth : 1 < depth) {members : List (Key × Node)}
    (h : MembersAreJson members) {a : Application} :
    ofNode depth (.object members .closed) = .ok a ↔
      ∃ last : Given, Given.Becomes (depth - 1) {} members last ∧ last.guid = some a.guid ∧
        a.name = last.name.getD "" ∧ a.space = last.space.getD "" ∧ a.org = last.org.getD "" ∧
        a.extra = last.extra := by
  have hlevels : ¬ depth ≤ 1 := by omega
  simp only [ofNode, if_neg hlevels, bind_eq_ok_iff, Given.readMembers_eq_ok_iff h, pure,
    Except.pure, Except.ok.injEq]
  constructor
  · rintro ⟨last, hlast, guid, hguid, rfl⟩
    cases hknown : last.guid with
    | none =>
      rw [hknown] at hguid
      cases hguid
    | some s =>
      rw [hknown] at hguid
      cases hguid
      exact ⟨last, hlast, hknown, rfl, rfl, rfl, rfl⟩
  · rintro ⟨last, hlast, hguid, hname, hspace, horg, hextra⟩
    refine ⟨last, hlast, a.guid, by rw [hguid]; rfl, ?_⟩
    rw [← hname, ← hspace, ← horg, ← hextra]

theorem ofNode_of_ne_object {depth : Nat} {root : Node}
    (h : ∀ members close, root ≠ .object members close) (a : Application) :
    ofNode depth root ≠ .ok a := by
  cases root with
  | object members close => exact absurd rfl (h members close)
  | _ => simp [ofNode, mismatch_ne_ok]

/-! ## Which objects are records -/

section
variable {members : List (Key × Node)}

/-- From nothing, a field is its members. -/
theorem Given.Becomes.valuesNamed {depth : Nat} {last : Given}
    (h : Given.Becomes depth {} members last) (field : TextField) :
    (Node.object members .closed).valuesNamed field.names = textNodes (field.get last) := by
  have htexts := h.texts field
  cases field <;> exact htexts

theorem IsRecord.of_becomes (h : MembersAreJson members) {last : Given}
    (hlast : Given.Becomes (depthLimit - 1) {} members last) (hguid : last.guid.isSome = true) :
    IsRecord (.object members .closed) := by
  obtain ⟨s, hs⟩ := Option.isSome_iff_exists.mp hguid
  obtain ⟨values, -, hvalues⟩ := hlast.extra
  have htext : ∀ field : TextField, (Node.object members .closed).valuesNamed field.names = [] ∨
      ∃ s, (Node.object members .closed).valuesNamed field.names = [.string (.ok s)] := by
    intro field
    rw [hlast.valuesNamed field]
    cases field.get last with
    | none => exact .inl rfl
    | some s => exact .inr ⟨s, rfl⟩
  exact
    { isObject := ⟨members, rfl⟩
      guid := ⟨s, (hlast.valuesNamed .guid).trans (by rw [TextField.get, hs]; rfl)⟩
      texts := by
        intro name hname
        simp only [List.mem_cons, List.not_mem_nil, or_false] at hname
        rcases hname with rfl | rfl | rfl
        · exact htext .name
        · exact htext .space
        · exact htext .org
      others := (exists_memberValues_iff_forall (by decide) (h.membersWhere _)).mp
        ⟨values, hvalues⟩ }

/-- Every record has texts and other members for the fields to take up. -/
theorem IsRecord.becomes (h : MembersAreJson members)
    (hrecord : IsRecord (.object members .closed)) :
    ∃ last : Given, Given.Becomes (depthLimit - 1) {} members last ∧ last.guid.isSome = true := by
  have htext : ∀ name ∈ ["name", "space", "org"], ∃ text : Option String,
      (Node.object members .closed).valuesNamed [name] = textNodes text := by
    intro name hname
    rcases hrecord.texts name hname with hnone | ⟨s, hs⟩
    · exact ⟨none, hnone⟩
    · exact ⟨some s, hs⟩
  obtain ⟨guid, hguid⟩ := hrecord.guid
  obtain ⟨name, hname⟩ := htext "name" (by decide)
  obtain ⟨space, hspace⟩ := htext "space" (by decide)
  obtain ⟨org, horg⟩ := htext "org" (by decide)
  obtain ⟨values, hvalues⟩ :=
    (exists_memberValues_iff_forall (show 0 < depthLimit - 1 by decide) (h.membersWhere _)).mpr
      hrecord.others
  refine ⟨⟨some guid, name, space, org, Members.ofList values⟩, ⟨fun field => ?_, values, rfl, hvalues⟩,
    rfl⟩
  cases field with
  | guid => exact hguid
  | name => exact hname
  | space => exact hspace
  | org => exact horg

end

theorem exists_ofNode_iff_isRecord {root : Node} (h : root.IsJson) :
    (∃ a, ofNode depthLimit root = .ok a) ↔ IsRecord root := by
  by_cases hobject : ∃ members close, root = .object members close
  · obtain ⟨members, close, rfl⟩ := hobject
    obtain ⟨hmembers, rfl⟩ := h
    simp only [ofNode_eq_ok_iff (show 1 < depthLimit by decide) hmembers]
    constructor
    · rintro ⟨a, last, hlast, hguid, -⟩
      exact .of_becomes hmembers hlast (by rw [hguid]; rfl)
    · intro hrecord
      obtain ⟨last, hlast, hguid⟩ := hrecord.becomes hmembers
      obtain ⟨guid, hguid⟩ := Option.isSome_iff_exists.mp hguid
      exact ⟨⟨guid, _, _, _, _⟩, last, hlast, hguid, rfl, rfl, rfl, rfl⟩
  · constructor
    · rintro ⟨a, ha⟩
      exact absurd ha (ofNode_of_ne_object (fun members close heq => hobject ⟨members, close, heq⟩) a)
    · intro hrecord
      obtain ⟨members, heq⟩ := hrecord.isObject
      exact absurd ⟨members, .closed, heq⟩ hobject

/-! ## What a record tells -/

section
variable {members : List (Key × Node)} {a : Application} {values : Members}
  (hextra : a.extra = Members.ofList values)
  (hvalues : memberValues (depthLimit - 1) (membersWhere (fun n => n ∉ fixedNames) members) =
    .ok values)
include hextra hvalues

/-- What is kept besides the fields is the last member of each other name. -/
theorem find?_extra_eq_some_iff {name : String} {v : Value} :
    Members.find? a.extra name = some v ↔ name ∉ fixedNames ∧
      ∃ node, (Node.object members .closed).member? name = some node ∧
        Value.ofNode (depthLimit - 1) node = .ok v := by
  have hone : (fun n => decide (n ∈ [name]) && decide (n ∉ fixedNames)) =
      fun n => decide (n ∈ [name]) && decide (name ∉ fixedNames) := by
    funext n
    by_cases hn : n = name <;> simp [hn]
  rw [hextra, find?_ofList_eq_some_iff hvalues, membersWhere_membersWhere, hone]
  by_cases hname : name ∈ fixedNames
  · have hempty : membersWhere (fun n => decide (n ∈ [name]) && decide (name ∉ fixedNames)) members =
        [] := by
      apply List.filter_eq_nil_iff.mpr
      intro m _
      cases m.1 <;> simp [Except.toOption, hname]
    rw [hempty]
    simp [hname]
  · simp only [hname, not_false_eq_true, decide_true, Bool.and_true, true_and]
    exact Iff.rfl

end

/-- A member with a fixed name is a text, so there is nothing to find in it. -/
theorem member?_of_fixed {members : List (Key × Node)} {last : Given} {depth : Nat}
    (hlast : Given.Becomes depth {} members last) {key : String} (hkey : key ∈ fixedNames)
    {node : Node} (hnode : (Node.object members .closed).member? key = some node) (name : String) :
    node.member? name = none := by
  obtain ⟨field, hfield⟩ := mem_fixedNames.mp hkey
  obtain ⟨m, hm, hname, rfl⟩ := Node.exists_of_member? hnode
  have hmem : m.2 ∈ (Node.object members .closed).valuesNamed field.names :=
    List.mem_map.mpr ⟨m, mem_membersWhere.mpr ⟨hm, key, hname, decide_eq_true hfield⟩, rfl⟩
  rw [hlast.valuesNamed field] at hmem
  obtain ⟨s, -, hs⟩ : ∃ s, field.get last = some s ∧ Node.string (.ok s) = m.2 := by
    simpa [textNodes] using hmem
  rw [← hs]
  rfl

/-- The metadata entries that are texts are those of the object. -/
theorem metadataText_eq_some_iff {members : List (Key × Node)} {a : Application} {last : Given}
    (hlast : Given.Becomes (depthLimit - 1) {} members last) (hextra : a.extra = last.extra)
    {key field s : String} :
    a.metadataText key field = some s ↔
      ((Node.object members .closed).member? key).bind (·.member? field) =
        some (.string (.ok s)) := by
  obtain ⟨values, hvalues, hread⟩ := hlast.extra
  have hfind : ∀ v, Members.find? a.extra key = some v ↔ key ∉ fixedNames ∧
      ∃ node, (Node.object members .closed).member? key = some node ∧
        Value.ofNode (depthLimit - 1) node = .ok v :=
    fun v => find?_extra_eq_some_iff (hextra.trans hvalues) hread
  unfold metadataText metadata
  cases hmember : (Node.object members .closed).member? key with
  | none =>
    have hnone : Members.find? a.extra key = none := by
      apply Option.eq_none_iff_forall_ne_some.mpr
      intro v hv
      obtain ⟨-, node, hnode, -⟩ := (hfind v).mp hv
      rw [hmember] at hnode
      cases hnode
    simp [hnone]
  | some node =>
    by_cases hkey : key ∈ fixedNames
    · have hnone : Members.find? a.extra key = none := by
        apply Option.eq_none_iff_forall_ne_some.mpr
        intro v hv
        exact ((hfind v).mp hv).1 hkey
      simp [hnone, member?_of_fixed hlast hkey hmember]
    · obtain ⟨m, hm, hname, rfl⟩ := Node.exists_of_member? hmember
      have hother : m ∈ membersWhere (fun n => n ∉ fixedNames) members :=
        mem_membersWhere.mpr ⟨hm, key, hname, decide_eq_true hkey⟩
      obtain ⟨v, hv⟩ := exists_ofNode_of_mem hread hother
      rw [(hfind v).mpr ⟨hkey, m.2, hmember, hv⟩]
      simp only [Option.bind_some]
      rw [Option.bind_eq_some_iff]
      constructor
      · rintro ⟨w, hw, hs⟩
        obtain ⟨inner, hinner, htext⟩ := (members?_find?_eq_some_iff hv).mp hw
        have hw : w = .string s := by
          cases w <;> simp_all [Value.string?]
        rw [hw] at htext
        rw [hinner, ofNode_eq_string_iff.mp htext]
      · intro hinner
        exact ⟨.string s, (members?_find?_eq_some_iff hv).mpr ⟨_, hinner, rfl⟩, rfl⟩

/-- A text is the one member of its name, or empty. -/
theorem isTextOf_of_valuesNamed {root : Node} {name : String} {text : Option String}
    (h : root.valuesNamed [name] = textNodes text) : IsTextOf (text.getD "") name root := by
  cases text with
  | none => exact .inr ⟨h, rfl⟩
  | some s => exact .inl h

theorem Tells.of_becomes {members : List (Key × Node)} {a : Application} {last : Given}
    (hlast : Given.Becomes (depthLimit - 1) {} members last) (hguid : last.guid = some a.guid)
    (hname : a.name = last.name.getD "") (hspace : a.space = last.space.getD "")
    (horg : a.org = last.org.getD "") (hextra : a.extra = last.extra) :
    a.Tells (.object members .closed) := by
  obtain ⟨values, hvalues, hread⟩ := hlast.extra
  have hwritten : a.extra = Members.ofList values := hextra.trans hvalues
  exact
    { guid := (hlast.valuesNamed .guid).trans (by rw [TextField.get, hguid]; rfl)
      name := hname ▸ isTextOf_of_valuesNamed (hlast.valuesNamed .name)
      space := hspace ▸ isTextOf_of_valuesNamed (hlast.valuesNamed .space)
      org := horg ▸ isTextOf_of_valuesNamed (hlast.valuesNamed .org)
      sorted := hwritten ▸ Members.ofList_sorted values
      extra := fun name v => find?_extra_eq_some_iff hwritten hread
      metadata := fun key field s => metadataText_eq_some_iff hlast hextra }

/-! ## Printed and read again -/

theorem valuesNamed_memberNodes {names : List String} {members : Members} {close : ObjectEnd}
    (h : ∀ m ∈ members, m.1 ∉ names) :
    (Node.object (memberNodes members) close).valuesNamed names = [] := by
  induction members with
  | nil => rfl
  | cons m rest ih =>
    rw [memberNodes, valuesNamed_cons, if_neg (h m List.mem_cons_self)]
    exact ih fun n hn => h n (List.mem_cons_of_mem _ hn)

/-- A record as what is known of it once it has been read. -/
def given (a : Application) : Given := ⟨some a.guid, some a.name, some a.space, some a.org, a.extra⟩

/-- A printed record has one member for each field, and then what is kept besides. -/
theorem exists_toJson {a : Application} (h : ∀ m ∈ a.extra, m.1 ∉ fixedNames) :
    ∃ members, a.toJson = .object members ∧
      (∀ field : TextField, (Node.object (memberNodes members) .closed).valuesNamed field.names =
        textNodes (field.get a.given)) ∧
      membersWhere (fun n => n ∉ fixedNames) (memberNodes members) = memberNodes a.extra := by
  have hnone : ∀ field : TextField,
      (Node.object (memberNodes a.extra) .closed).valuesNamed field.names = [] :=
    fun field => valuesNamed_memberNodes fun m hm hmem =>
      h m hm (mem_fixedNames.mpr ⟨field, hmem⟩)
  have hothers : membersWhere (fun n => n ∉ fixedNames) (memberNodes a.extra) =
      memberNodes a.extra := by
    rw [membersWhere_memberNodes, List.filter_eq_self.mpr fun m hm => decide_eq_true (h m hm)]
  refine ⟨_, rfl, fun field => ?_, ?_⟩
  · have hrest := hnone field
    simp only [List.cons_append, List.nil_append, memberNodes, valuesNamed_cons, hrest]
    cases field <;> rfl
  · simp only [List.cons_append, List.nil_append, memberNodes, membersWhere_cons, hothers]
    rfl

/-- A record that was read from an object is read again from its own text if, and only if, the
doubles in it are read back. -/
theorem ofDocument_toJson_iff {members : List (Key × Node)} (h : MembersAreJson members)
    {a : Application} (ha : ofNode depthLimit (.object members .closed) = .ok a) :
    ofDocument (.ofString a.toJson.text) = .ok a ↔ ReadBack (memberDoubles a.extra) := by
  have hlevels : 1 < depthLimit := by decide
  obtain ⟨last, hlast, -, -, -, -, hextra⟩ := (ofNode_eq_ok_iff hlevels h).mp ha
  obtain ⟨values, hvalues, hread⟩ := hlast.extra
  have hwritten : a.extra = Members.ofList values := hextra.trans hvalues
  have hnames : ∀ m ∈ a.extra, m.1 ∉ fixedNames := by
    intro m hm
    obtain ⟨v, hv⟩ := Members.exists_find?_of_mem hm
    exact ((find?_extra_eq_some_iff hwritten hread).mp hv).1
  obtain ⟨printed, hprinted, htexts, hothers⟩ := exists_toJson hnames
  have hjson : MembersAreJson (memberNodes printed) := memberNodes_areJson printed
  rw [ofDocument, hprinted, Document.decode_text, Value.node, ofNode_eq_ok_iff hlevels hjson]
  constructor
  · rintro ⟨again, hagain, -, -, -, -, hsame⟩
    obtain ⟨others, hlast, hread⟩ := hagain.extra
    rw [hothers] at hread
    have heq := memberValues_eq_self hread (hsame.trans hlast)
    exact memberDoubles_readBack a.extra (heq ▸ hread)
  · intro hdoubles
    have hagain : ∀ m ∈ a.extra, Value.ofNode (depthLimit - 1) m.2.node = .ok m.2 := by
      intro m hm
      have hmem := Members.mem_ofList (hwritten ▸ hm)
      exact memberValues_each _ hread m hmem (readBack_of_member hdoubles hm)
    have hsorted : Members.Sorted a.extra := hwritten ▸ Members.ofList_sorted values
    refine ⟨a.given, ⟨fun field => ?_, a.extra, ?_, ?_⟩, rfl, rfl, rfl, rfl, rfl⟩
    · rw [htexts field]
      cases field <;> rfl
    · exact (Members.ofList_of_sorted hsorted).symm
    · rw [hothers]
      exact memberValues_memberNodes hagain

/-! ## The law -/

/-- A JSON text is a record if it is an object with one identifier, each of the other texts
once at most, and nothing else that is too deep or out of range. The record tells of each
member of the object, of several with one name the last. It is read again from its own text
if, and only if, the doubles in it are read back. -/
theorem record_is_read_member_by_member {d : Document} (h : d.IsJson) :
    ((∃ a, ofDocument d = .ok a) ↔ IsRecord d.root) ∧
      ∀ a, ofDocument d = .ok a → a.Tells d.root ∧
        (ofDocument (.ofString a.toJson.text) = .ok a ↔ ReadBack (memberDoubles a.extra)) := by
  obtain ⟨hroot, hends⟩ := h
  have hdecode : ofDocument d = ofNode depthLimit d.root := Document.decode_of_ends hends _ _
  rw [hdecode]
  have hrecord := exists_ofNode_iff_isRecord hroot
  refine ⟨hrecord, fun a ha => ?_⟩
  obtain ⟨members, hobject⟩ := (hrecord.mp ⟨a, ha⟩).isObject
  rw [hobject] at hroot ha ⊢
  obtain ⟨last, hlast, hguid, hname, hspace, horg, hextra⟩ :=
    (ofNode_eq_ok_iff (show 1 < depthLimit by decide) hroot.1).mp ha
  exact ⟨.of_becomes hlast hguid hname hspace horg hextra, ofDocument_toJson_iff hroot.1 ha⟩

/-- An object with names that repeat: of two states the last counts. -/
theorem record_of_the_last_of_two_states :
    let object : Value := .object [
      ("environment_vars", .object [(launcherStateField, .string "creating"),
        (launcherStateField, .string "finished")]),
      ("id", .string "a1"), ("note", .null), ("note", .number (.float twoAndAHalf))]
    let a : Application :=
      { guid := "a1"
        extra := [("environment_vars", .object [(launcherStateField, .string "finished")]),
          ("note", .number (.float twoAndAHalf))] }
    let d := Document.ofString object.text
    d.IsJson ∧ ofDocument d = .ok a ∧ a.Tells d.root ∧ IsRecord d.root ∧
      a.metadataText "environment_vars" launcherStateField = some "finished" ∧
      ofDocument (.ofString a.toJson.text) = .ok a := by
  intro object a d
  have hjson : d.IsJson := Document.isJson_text object
  have hnumber : Value.ofNode (depthLimit - 1) (.number (Number.float twoAndAHalf).literal) =
      .ok (.number (.float twoAndAHalf)) :=
    ofNode_number (Number.readsBack_iff.mp twoAndAHalf_readsBack)
  have hread : ofDocument d = .ok a := by
    rw [ofDocument, Document.decode_text]
    refine (ofNode_eq_ok_iff (by decide) (memberNodes_areJson _)).mpr
      ⟨⟨some "a1", none, none, none, a.extra⟩, ⟨fun field => ?_, ?_⟩, rfl, rfl, rfl, rfl, rfl⟩
    · cases field <;> rfl
    · refine ⟨[("environment_vars", .object [(launcherStateField, .string "finished")]),
        ("note", .null), ("note", .number (.float twoAndAHalf))], rfl, ?_⟩
      exact memberValues_cons_eq_ok_iff.mpr ⟨_, _, rfl, memberValues_cons_eq_ok_iff.mpr
        ⟨_, _, rfl, memberValues_cons_eq_ok_iff.mpr ⟨_, [], hnumber, rfl, rfl⟩, rfl⟩, rfl⟩
  obtain ⟨hrecord, htells⟩ := record_is_read_member_by_member hjson
  obtain ⟨htells, hagain⟩ := htells a hread
  refine ⟨hjson, hread, htells, hrecord.mp ⟨a, hread⟩, rfl, hagain.mpr ?_⟩
  intro x hx
  cases List.mem_singleton.mp hx
  exact twoAndAHalf_readsBack

/-! ## Where the limits are met -/

/-- An object with an identifier and one more member. -/
def objectWith (node : Node) : Node :=
  .object [(.ok "guid", .string (.ok "a")), (.ok "x", node)] .closed

theorem objectWith_hasTexts (node : Node) : HasTexts (objectWith node) where
  isObject := ⟨_, rfl⟩
  guid := ⟨"a", rfl⟩
  texts := by
    intro name hname
    simp only [List.mem_cons, List.not_mem_nil, or_false] at hname
    rcases hname with rfl | rfl | rfl <;> exact .inl rfl

theorem objectWith_isJson {node : Node} (h : node.IsJson) : (objectWith node).IsJson :=
  ⟨⟨⟨_, rfl⟩, ⟨_, rfl⟩, ⟨_, rfl⟩, h, trivial⟩, rfl⟩

theorem objectWith_number_isJson (l : NumberLiteral) : (objectWith (.number l)).IsJson :=
  objectWith_isJson trivial

/-- A text of an object that has the texts of a record, and is none. -/
def IsRefused (text : String) : Prop :=
  let d := Document.ofString text
  d.IsJson ∧ HasTexts d.root ∧ ∀ a, ofDocument d ≠ .ok a

/-- What is too deep or out of range makes an object no record. -/
theorem isRefused_of_objectWith {text : String} {node : Node}
    (htext : Document.ofString text = ⟨objectWith node, true⟩) (hjson : node.IsJson)
    (h : ¬ (node.height < depthLimit - 1 ∧ node.InRange)) : IsRefused text := by
  unfold IsRefused
  rw [htext]
  refine ⟨⟨objectWith_isJson hjson, rfl⟩, objectWith_hasTexts node, fun a ha => ?_⟩
  rw [ofDocument, Document.decode_of_ends rfl] at ha
  have hrecord := (exists_ofNode_iff_isRecord (objectWith_isJson hjson)).mp ⟨a, ha⟩
  exact h (hrecord.others node List.mem_cons_self)

theorem ofNode_objectWith_number {l : NumberLiteral} {n : Number} (h : l.toNumber = .ok n) :
    ofNode depthLimit (objectWith (.number l)) =
      .ok { guid := "a", extra := [("x", .number n)] } := by
  refine (ofNode_eq_ok_iff (by decide) (objectWith_number_isJson l).1).mpr
    ⟨⟨some "a", none, none, none, [("x", .number n)]⟩, ⟨fun field => ?_, ?_⟩, rfl, rfl, rfl, rfl, rfl⟩
  · cases field <;> rfl
  · exact ⟨[("x", .number n)], rfl,
      memberValues_cons_eq_ok_iff.mpr ⟨_, [], ofNode_number h, rfl, rfl⟩⟩

/-- Lists in lists. -/
def nested : Nat → Value
  | 0 => .list []
  | n + 1 => .list [nested n]

theorem nested_height (n : Nat) : (nested n).node.height = n + 1 := by
  induction n with
  | zero => rfl
  | succ n ih =>
    have hone : (nested (n + 1)).node.height = max (nested n).node.height 0 + 1 := rfl
    rw [hone, ih, Nat.max_zero]

/-- A double that is read from `460e53`, and then from its own text as another one. -/
def wanderingDouble : FiniteDouble where
  negative := false
  mantissa := 8448865646535191
  scale := 1206
  normal := by decide

/-- Objects with one identifier are refused for a number past the doubles, or for lists that
lie too deep. A record may be read from its own text as another one. -/
theorem objects_are_refused_past_the_limits_and_a_double_changes :
    IsRefused "\x7b\"guid\":\"a\",\"x\":1e999\x7d" ∧
      IsRefused (Value.object [("guid", .string "a"), ("x", nested 126)]).text ∧
      ∃ a, ofDocument (.ofString "\x7b\"guid\":\"a\",\"x\":460e53\x7d") = .ok a ∧
        ofDocument (.ofString a.toJson.text) ≠ .ok a := by
  refine ⟨?_, ?_, ?_⟩
  · have htext : Document.ofString "\x7b\"guid\":\"a\",\"x\":1e999\x7d" =
        ⟨objectWith (.number ⟨false, [1], [], false, false, [9, 9, 9]⟩), true⟩ := by
      with_unfolding_all rfl
    have hfault : NumberLiteral.toNumber ⟨false, [1], [], false, false, [9, 9, 9]⟩ =
        .error .numberOutOfRange := by decide +kernel
    apply isRefused_of_objectWith htext trivial
    rintro ⟨-, n, hn⟩
    rw [hfault] at hn
    cases hn
  · apply isRefused_of_objectWith (Document.ofString_text _) (nested 126).node_isJson
    rw [nested_height]
    exact fun h => absurd h.1 (by decide)
  · have htext : Document.ofString "\x7b\"guid\":\"a\",\"x\":460e53\x7d" =
        ⟨objectWith (.number ⟨false, [4, 6, 0], [], false, false, [5, 3]⟩), true⟩ := by
      with_unfolding_all rfl
    have hnumber : NumberLiteral.toNumber ⟨false, [4, 6, 0], [], false, false, [5, 3]⟩ =
        .ok (.float wanderingDouble) := by decide +kernel
    have hread := ofNode_objectWith_number hnumber
    have hchanges : ¬ (Number.float wanderingDouble).ReadsBack := by
      rw [Number.readsBack_iff]
      decide +kernel
    rw [htext]
    refine ⟨_, (Document.decode_of_ends rfl _ _).trans hread, ?_⟩
    rw [Ne, ofDocument_toJson_iff (objectWith_number_isJson _).1 hread]
    exact fun h => hchanges (h _ List.mem_cons_self)

end Application

end Provisioning
