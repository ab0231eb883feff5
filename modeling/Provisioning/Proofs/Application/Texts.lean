-- Texts that are records, and texts that are lists of them. A record in a list lies one level
-- deeper, so that less may lie in it; it is a record like any other all the same.
import Provisioning.Proofs.Application.Record

namespace Provisioning

open Json

namespace Application

/-! ## What a reading says of the text -/

section
variable {depth : Nat} {root : Node} {a : Application}

/-- Each member that is taken up is without a fault, be it a text or kept as it stands. -/
theorem Given.membersAreJson_of_readMembers {close : ObjectEnd} {members : List (Key × Node)}
    {g last : Given} (h : readMembers (Given.read depth) close g members = .ok last) :
    MembersAreJson members ∧ close = .closed := by
  induction members generalizing g with
  | nil =>
    refine ⟨trivial, ObjectEnd.readFault?_eq_none_iff.mp ?_⟩
    unfold readMembers at h
    cases hfault : close.readFault? with
    | none => rfl
    | some fault => simp [hfault] at h
  | cons m rest ih =>
    obtain ⟨key, node⟩ := m
    cases key with
    | error fault => cases h
    | ok n =>
      by_cases hfixed : n ∈ fixedNames
      · obtain ⟨field, hname⟩ := mem_fixedNames.mp hfixed
        obtain ⟨next, hnext, hread⟩ :=
          (readMembers_cons_eq_ok_iff (read_of_text hname g node)).mp h
        obtain ⟨text, htext, -⟩ := map_eq_ok_iff.mp hnext
        obtain ⟨-, s, rfl, -⟩ := readField_eq_ok_iff.mp htext
        obtain ⟨hrest, hclose⟩ := ih hread
        exact ⟨⟨⟨n, rfl⟩, ⟨s, rfl⟩, hrest⟩, hclose⟩
      · obtain ⟨next, hnext, hread⟩ :=
          (readMembers_cons_eq_ok_iff (read_of_other hfixed g node)).mp h
        obtain ⟨v, hv, -⟩ := map_eq_ok_iff.mp hnext
        obtain ⟨hrest, hclose⟩ := ih hread
        exact ⟨⟨⟨n, rfl⟩, node.isJson_of_ofNode (liftFault_eq_ok_iff.mp hv), hrest⟩, hclose⟩

/-- Only an object without a fault is read as a record, with a level left for its members. -/
theorem exists_members_of_ofNode (h : ofNode depth root = .ok a) :
    1 < depth ∧ ∃ members, root = .object members .closed ∧ MembersAreJson members := by
  by_cases hobject : ∃ members close, root = .object members close
  · obtain ⟨members, close, rfl⟩ := hobject
    by_cases hlevels : depth ≤ 1
    · simp only [ofNode, if_pos hlevels] at h
      cases h
    · simp only [ofNode, if_neg hlevels] at h
      obtain ⟨last, hlast, -⟩ := bind_eq_ok_iff.mp h
      obtain ⟨hmembers, rfl⟩ := Given.membersAreJson_of_readMembers hlast
      exact ⟨by omega, members, rfl, hmembers⟩
  · apply absurd h
    exact ofNode_of_ne_object (fun members close heq => hobject ⟨members, close, heq⟩) a

theorem isJson_of_ofNode (h : ofNode depth root = .ok a) : root.IsJson := by
  obtain ⟨-, members, rfl, hmembers⟩ := exists_members_of_ofNode h
  exact ⟨hmembers, rfl⟩

/-- With more levels left, a record is read as the same one. -/
theorem ofNode_of_le {more : Nat} (hle : depth ≤ more) (h : ofNode depth root = .ok a) :
    ofNode more root = .ok a := by
  obtain ⟨hlevels, members, rfl, hmembers⟩ := exists_members_of_ofNode h
  obtain ⟨last, ⟨htexts, values, hextra, hvalues⟩, hrest⟩ :=
    (ofNode_eq_ok_iff hlevels hmembers).mp h
  have hmore : memberValues (more - 1) (membersWhere (fun n => n ∉ fixedNames) members) =
      .ok values := memberValues_of_le (by omega) hvalues
  apply (ofNode_eq_ok_iff (by omega) hmembers).mpr
  exact ⟨last, ⟨htexts, values, hextra, hmore⟩, hrest⟩

end

/-! ## One record -/

/-- A text that is a record. -/
def IsRecordText (d : Document) : Prop := d.IsJson ∧ IsRecord d.root

theorem exists_ofDocument_iff {d : Document} : (∃ a, ofDocument d = .ok a) ↔ IsRecordText d := by
  simp only [ofDocument, Document.decode_eq_ok_iff]
  constructor
  · rintro ⟨a, hends, ha⟩
    have hjson := isJson_of_ofNode ha
    exact ⟨⟨hjson, hends⟩, (exists_ofNode_iff_isRecord hjson).mp ⟨a, ha⟩⟩
  · rintro ⟨⟨hjson, hends⟩, hrecord⟩
    obtain ⟨a, ha⟩ := (exists_ofNode_iff_isRecord hjson).mpr hrecord
    exact ⟨a, hends, ha⟩

theorem tells_of_ofNode {root : Node} {a : Application} (h : ofNode depthLimit root = .ok a) :
    a.Tells root := by
  obtain ⟨hlevels, members, rfl, hmembers⟩ := exists_members_of_ofNode h
  obtain ⟨last, hlast, hguid, hname, hspace, horg, hextra⟩ :=
    (ofNode_eq_ok_iff hlevels hmembers).mp h
  exact .of_becomes hlast hguid hname hspace horg hextra

theorem tells_of_ofDocument {d : Document} {a : Application} (h : ofDocument d = .ok a) :
    a.Tells d.root := tells_of_ofNode (Document.decode_eq_ok_iff.mp h).2

/-! ## Lists of records -/

/-- A record that is an item of a list: with the list around it, what is kept as it stands may
be one level less deep. -/
structure IsListedRecord (root : Node) : Prop extends IsRecord root where
  shallow : ∀ node ∈ root.valuesWhere (fun n => n ∉ fixedNames), node.height < depthLimit - 2

/-- A list of records; `null` is one without any. -/
def IsRecordList (root : Node) : Prop :=
  root = .null ∨ ∃ items, root = .list items .closed ∧ ∀ node ∈ items, IsListedRecord node

/-- A text that is a list of records. -/
def IsRecordListText (d : Document) : Prop := d.IsJson ∧ IsRecordList d.root

/-- What records tell of the list that they were read from: they are its items, in order. -/
def ListTells (apps : List Application) (root : Node) : Prop :=
  (root = .null ∧ apps = []) ∨
    ∃ items, root = .list items .closed ∧ List.Forall₂ (fun node a => a.Tells node) items apps

theorem exists_ofNode_iff_isListedRecord {root : Node} (h : root.IsJson) :
    (∃ a, ofNode (depthLimit - 1) root = .ok a) ↔ IsListedRecord root := by
  have hdepth : 1 < depthLimit - 1 := by decide
  constructor
  · rintro ⟨a, ha⟩
    obtain ⟨-, members, rfl, hmembers⟩ := exists_members_of_ofNode ha
    obtain ⟨last, hlast, -⟩ := (ofNode_eq_ok_iff hdepth hmembers).mp ha
    obtain ⟨values, -, hvalues⟩ := hlast.extra
    have hothers := (exists_memberValues_iff_forall (show 0 < depthLimit - 1 - 1 by decide)
      (hmembers.membersWhere _)).mp ⟨values, hvalues⟩
    have hrecord := (exists_ofNode_iff_isRecord h).mp ⟨a, ofNode_of_le (by decide) ha⟩
    exact ⟨hrecord, fun node hnode => (hothers node hnode).1⟩
  · intro hrecord
    obtain ⟨members, rfl⟩ := hrecord.isObject
    obtain ⟨last, hlast, hguid⟩ := hrecord.toIsRecord.becomes h.1
    obtain ⟨guid, hguid⟩ := Option.isSome_iff_exists.mp hguid
    -- The values are those of a record on its own: fewer levels do not change what is read.
    obtain ⟨values, hvalues⟩ :=
      (exists_memberValues_iff_forall (show 0 < depthLimit - 2 by decide) (h.1.membersWhere _)).mpr
        fun node hnode => ⟨hrecord.shallow node hnode, (hrecord.others node hnode).2⟩
    obtain ⟨same, hextra, hsame⟩ := hlast.extra
    have heq : values = same :=
      Except.ok.inj ((memberValues_of_le (by decide) hvalues).symm.trans hsame)
    subst heq
    exact ⟨⟨guid, _, _, _, _⟩, (ofNode_eq_ok_iff hdepth h.1).mpr
      ⟨last, ⟨hlast.texts, values, hextra, hvalues⟩, hguid, rfl, rfl, rfl, rfl⟩⟩

/-- A text is read as a list of records if it is `null`, or a closed list of which each item is
read. -/
theorem listOfDocument_eq_ok_iff {d : Document} {apps : List Application} :
    listOfDocument d = .ok apps ↔ d.ends = true ∧
      ((d.root = .null ∧ apps = []) ∨ ∃ items, d.root = .list items .closed ∧
        List.Forall₂ (fun node a => ofNode (depthLimit - 1) node = .ok a) items apps) := by
  have hdepth : 1 < depthLimit := by decide
  simp only [listOfDocument, map_eq_ok_iff, Document.decode_eq_ok_iff, decodeOption_eq_ok_iff,
    decodeList_eq_ok_iff]
  constructor
  · rintro ⟨-, ⟨hends, ⟨hnull, rfl⟩ | ⟨-, _, ⟨-, items, hitems, hread⟩, rfl⟩⟩, rfl⟩
    · exact ⟨hends, .inl ⟨hnull, rfl⟩⟩
    · exact ⟨hends, .inr ⟨items, hitems, hread⟩⟩
  · rintro ⟨hends, ⟨hnull, rfl⟩ | ⟨items, hitems, hread⟩⟩
    · exact ⟨none, ⟨hends, .inl ⟨hnull, rfl⟩⟩, rfl⟩
    · have hne : d.root ≠ .null := by
        rw [hitems]
        exact Node.noConfusion
      exact ⟨some apps, ⟨hends, .inr ⟨hne, apps, ⟨hdepth, items, hitems, hread⟩, rfl⟩⟩, rfl⟩

theorem exists_listOfDocument_iff {d : Document} :
    (∃ apps, listOfDocument d = .ok apps) ↔ IsRecordListText d := by
  simp only [listOfDocument_eq_ok_iff]
  constructor
  · rintro ⟨apps, hends, ⟨hnull, -⟩ | ⟨items, hitems, hread⟩⟩
    · refine ⟨⟨?_, hends⟩, .inl hnull⟩
      rw [hnull]
      trivial
    · have heach := exists_forall₂_iff.mp ⟨apps, hread⟩
      have hjson : ∀ node ∈ items, node.IsJson := by
        intro node hnode
        obtain ⟨a, ha⟩ := heach node hnode
        exact isJson_of_ofNode ha
      refine ⟨⟨?_, hends⟩, .inr ⟨items, hitems, fun node hnode => ?_⟩⟩
      · rw [hitems]
        exact ⟨itemsAreJson_iff.mpr hjson, rfl⟩
      · exact (exists_ofNode_iff_isListedRecord (hjson node hnode)).mp (heach node hnode)
  · rintro ⟨⟨hjson, hends⟩, hnull | ⟨items, hitems, hrecords⟩⟩
    · exact ⟨[], hends, .inl ⟨hnull, rfl⟩⟩
    · rw [hitems] at hjson
      have heach : ∀ node ∈ items, ∃ a, ofNode (depthLimit - 1) node = .ok a := by
        intro node hnode
        have hnodejson := itemsAreJson_iff.mp hjson.1 node hnode
        exact (exists_ofNode_iff_isListedRecord hnodejson).mpr (hrecords node hnode)
      obtain ⟨apps, hread⟩ := exists_forall₂_iff.mpr heach
      exact ⟨apps, hends, .inr ⟨items, hitems, hread⟩⟩

theorem listTells_of_listOfDocument {d : Document} {apps : List Application}
    (h : listOfDocument d = .ok apps) : ListTells apps d.root := by
  obtain ⟨-, hnull | ⟨items, hitems, hread⟩⟩ := listOfDocument_eq_ok_iff.mp h
  · exact .inl hnull
  · refine .inr ⟨items, hitems, hread.imp fun node a ha => ?_⟩
    exact tells_of_ofNode (ofNode_of_le (by decide) ha)

end Application

end Provisioning
