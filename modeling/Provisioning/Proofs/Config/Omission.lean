-- A configuration that is printed and read again, with some of its fields left out and
-- members of other names put in. What is left out takes its default, what no field has for
-- a name is passed over, and the order does not matter.
import Mathlib.Data.List.Nodup
import Mathlib.Data.List.Perm.Basic
import Provisioning.Config.Basic
import Provisioning.Config.Json
import Provisioning.Proofs.Json.Decode
import Provisioning.Proofs.Stage.Reread

namespace Provisioning

open Json

namespace Config

/-- The members that a configuration is printed with. -/
def members (c : Config) : Members := c.toJson.members?.getD []

/-- The configuration with defaults for the fields of these names. -/
def defaulted (c : Config) (omitted : List String) : Config where
  baseUrl := if "base_url" ∈ omitted then standard.baseUrl else c.baseUrl
  pollIntervalSeconds :=
    if "poll_interval_seconds" ∈ omitted then standard.pollIntervalSeconds
    else c.pollIntervalSeconds
  timeoutSeconds := if "timeout_seconds" ∈ omitted then standard.timeoutSeconds else c.timeoutSeconds
  userAgent := if "user_agent" ∈ omitted then standard.userAgent else c.userAgent
  metadataKey := if "metadata_key" ∈ omitted then standard.metadataKey else c.metadataKey
  stateField := if "state_field" ∈ omitted then standard.stateField else c.stateField
  terminalMarker := if "terminal_marker" ∈ omitted then standard.terminalMarker else c.terminalMarker
  stages := if "stages" ∈ omitted then standard.stages else c.stages

/-- Both numbers of seconds are read from their own texts as what they are. -/
def SecondsReadBack (c : Config) : Prop :=
  ∀ x, c.pollIntervalSeconds = .finite x ∨ c.timeoutSeconds = .finite x →
    (Number.float x).ReadsBack

/-! ## One member -/

/-- What a reader holds once it has met the members of these names. -/
def Given.having (c : Config) (met : List String) : Given where
  baseUrl := if "base_url" ∈ met then some c.baseUrl else none
  pollIntervalSeconds := if "poll_interval_seconds" ∈ met then some c.pollIntervalSeconds else none
  timeoutSeconds := if "timeout_seconds" ∈ met then some c.timeoutSeconds else none
  userAgent := if "user_agent" ∈ met then some c.userAgent else none
  metadataKey := if "metadata_key" ∈ met then some c.metadataKey else none
  stateField := if "state_field" ∈ met then some c.stateField else none
  terminalMarker := if "terminal_marker" ∈ met then some c.terminalMarker else none
  stages := if "stages" ∈ met then some c.stages else none

theorem Given.read_of_unknown {name : String} (h : name ∉ Given.names) (depth : Nat) (g : Given)
    (node : Node) : Given.read depth name g node = none := by
  simp only [names, List.mem_cons, List.not_mem_nil, or_false, not_or] at h
  simp [read, h]

/-- A double of a valid configuration is read from its own text. -/
theorem decodeDouble_of_usable {seconds : Double} {length : Duration}
    (h : isUsableSeconds seconds length = true)
    (hback : ∀ x, seconds = .finite x → (Number.float x).ReadsBack) :
    decodeDouble (Value.ofDouble seconds).node = .ok seconds := by
  cases seconds with
  | finite x => exact decodeDouble_node (hback x rfl)
  | infinite negative => cases h
  | nan => cases h

/-- Each member of a printed configuration is taken up, if none of its name was met. -/
theorem Given.read_member {c : Config} (hvalid : c.fault? = none) (hseconds : c.SecondsReadBack)
    {depth : Nat} (hdepth : 2 < depth) {m : String × Value} (hm : m ∈ c.members)
    {met : List String} (hmet : m.1 ∉ met) :
    Given.read depth m.1 (having c met) m.2.node = some (.ok (having c (m.1 :: met))) := by
  obtain ⟨hinterval, htimeout⟩ := usable_of_valid hvalid
  have hdouble₁ := decodeDouble_of_usable hinterval fun x hx => hseconds x (.inl hx)
  have hdouble₂ := decodeDouble_of_usable htimeout fun x hx => hseconds x (.inr hx)
  have htable := c.stages.ofNode_toJson hdepth
  change m ∈ [_, _, _, _, _, _, _, _] at hm
  simp only [List.mem_cons, List.not_mem_nil, or_false] at hm
  rcases hm with rfl | rfl | rfl | rfl | rfl | rfl | rfl | rfl <;>
    simp [read, readField, having, hmet, decodeString_node, decodeText?_node, hdouble₁, hdouble₂,
      htable, Except.map]

/-! ## All members -/

/-- The members of a printed configuration are taken up one by one, none of them twice. -/
theorem Given.readMembers_having {c : Config} (hvalid : c.fault? = none)
    (hseconds : c.SecondsReadBack) {depth : Nat} (hdepth : 2 < depth) {members : Members}
    {met : List String} (hmembers : members ⊆ c.members)
    (honce : (members.map Prod.fst ++ met).Nodup) :
    readMembers (Given.read depth) .closed (having c met) (memberNodes members) =
      .ok (having c ((members.map Prod.fst).reverse ++ met)) := by
  -- On the members, over the names that were met before them.
  induction members generalizing met with
  | nil => rfl
  | cons m rest ih =>
    obtain ⟨hm, hrest⟩ := List.cons_subset.mp hmembers
    rw [List.map_cons, List.cons_append, ← List.nodup_middle] at honce
    have hmet : m.1 ∉ met := fun hmem =>
      (List.nodup_cons.mp (List.nodup_middle.mp honce)).1 (List.mem_append_right _ hmem)
    rw [memberNodes, readMembers_of_known (read_member hvalid hseconds hdepth hm hmet),
      ih hrest honce, List.map_cons, List.reverse_cons, List.append_assoc]
    rfl

/-- What is held at the end is completed by the defaults of what was never met. -/
theorem Given.complete_having {c : Config} {met omitted : List String}
    (h : ∀ name ∈ Given.names, name ∈ met ↔ name ∉ omitted) :
    (having c met).complete = c.defaulted omitted := by
  have hfield : ∀ {α : Type} (name : String) (a b : α), name ∈ Given.names →
      (if name ∈ met then some a else none).getD b = if name ∈ omitted then b else a := by
    intro α name a b hname
    by_cases hmet : name ∈ met
    · simp [hmet, (h name hname).mp hmet]
    · simp [hmet, Decidable.not_not.mp (mt (h name hname).mpr hmet)]
  simp only [having, complete, defaulted]
  rw [hfield "base_url", hfield "poll_interval_seconds", hfield "timeout_seconds",
    hfield "user_agent", hfield "metadata_key", hfield "state_field", hfield "terminal_marker",
    hfield "stages"]
  all_goals decide

/-! ## What is written -/

/-- A text of an object with the members of a configuration, as they are printed, but for
those that are left out, and with any others, in any order. -/
structure WrittenWithout (c : Config) (omitted : List String) (d : Document) : Prop where
  isJson : d.IsJson
  members : ∃ written, d.root = .object written .closed ∧
    (membersWhere (fun name => name ∈ Given.names) written).Perm
      (memberNodes (c.members.filter fun m => m.1 ∉ omitted))

theorem members_names (c : Config) : c.members.map Prod.fst = Given.names := rfl

/-- Members that are printed in one object are such a text. -/
theorem writtenWithout_text {c : Config} {omitted : List String} {members : Members}
    (h : (members.filter fun m => m.1 ∈ Given.names).Perm
      (c.members.filter fun m => m.1 ∉ omitted)) :
    c.WrittenWithout omitted (.ofString (Value.object members).text) where
  isJson := Document.isJson_text _
  members := by
    refine ⟨memberNodes members, by rw [Document.ofString_text, Value.node], ?_⟩
    rw [membersWhere_memberNodes, memberNodes_eq_map, memberNodes_eq_map]
    exact h.map _

/-- The members that are not left out are there, each of them once. -/
theorem WrittenWithout.exists_kept {c : Config} {omitted : List String} {d : Document}
    (h : c.WrittenWithout omitted d) :
    ∃ written kept, d.root = .object written .closed ∧
      membersWhere (fun name => name ∈ Given.names) written = memberNodes kept ∧
      kept ⊆ c.members ∧ (kept.map Prod.fst).Nodup ∧
      ∀ name ∈ Given.names, name ∈ kept.map Prod.fst ↔ name ∉ omitted := by
  obtain ⟨written, hroot, hperm⟩ := h.members
  rw [memberNodes_eq_map] at hperm
  -- What is a permutation of printed members is printed from a permutation of the members.
  obtain ⟨kept, hkept, hperm⟩ :=
    (congrFun (congrFun (List.eq_map_comp_perm _) _) _).mpr hperm
  refine ⟨written, kept, hroot, hkept.trans (memberNodes_eq_map kept).symm, ?_, ?_, ?_⟩
  · exact fun m hm => List.mem_of_mem_filter (hperm.mem_iff.mp hm)
  · have hnames : Given.names.Nodup := by decide
    rw [← c.members_names] at hnames
    exact (hperm.map Prod.fst).nodup_iff.mpr (hnames.sublist (List.filter_sublist.map Prod.fst))
  · intro name hname
    rw [(hperm.map Prod.fst).mem_iff]
    constructor
    · intro hmem
      obtain ⟨m, hm, rfl⟩ := List.mem_map.mp hmem
      simpa using (List.mem_filter.mp hm).2
    · intro homitted
      rw [← c.members_names] at hname
      obtain ⟨m, hm, rfl⟩ := List.mem_map.mp hname
      exact List.mem_map.mpr ⟨m, List.mem_filter.mpr ⟨hm, by simpa using homitted⟩, rfl⟩

/-! ## The law -/

/-- What such a text is read as, before it is checked. -/
theorem ofDocument_of_writtenWithout {c : Config} (hvalid : c.fault? = none)
    (hseconds : c.SecondsReadBack) {omitted : List String} {d : Document}
    (h : c.WrittenWithout omitted d) : ofDocument d = .ok (c.defaulted omitted) := by
  obtain ⟨written, kept, hroot, hkept, hmembers, honce, hnames⟩ := h.exists_kept
  obtain ⟨hjson, hends⟩ := h.isJson
  rw [hroot] at hjson
  rw [← List.append_nil (kept.map Prod.fst)] at honce
  have hread := Given.readMembers_having hvalid hseconds (show 2 < depthLimit - 1 by decide)
    hmembers honce
  have hunknown : ∀ name g node, decide (name ∈ Given.names) = false →
      Given.read (depthLimit - 1) name g node = none :=
    fun name g node hname => Given.read_of_unknown (of_decide_eq_false hname) _ g node
  have hlevels : ¬ depthLimit ≤ 1 := by decide
  rw [ofDocument, Document.decode_of_ends hends, hroot, ofNode, if_neg hlevels,
    readMembers_membersWhere hunknown hjson.1, hkept]
  refine map_eq_ok_iff.mpr ⟨_, hread, Given.complete_having fun name hname => ?_⟩
  rw [List.append_nil, List.mem_reverse]
  exact hnames name hname

/-- A valid configuration that is printed, but for the fields that are left out and with any
members of other names put in, is read as the configuration with the defaults of what is
left out, and this one is checked. With nothing left out it is the configuration itself. -/
theorem what_is_left_out_takes_its_default {c : Config} (hvalid : c.validate = .ok c)
    (hseconds : c.SecondsReadBack) :
    (∀ omitted text, c.WrittenWithout omitted (.ofString text) →
      ofText text = (c.defaulted omitted).validate) ∧
      ofText c.toJson.text = .ok c := by
  have hread : ∀ omitted text, c.WrittenWithout omitted (.ofString text) →
      ofText text = (c.defaulted omitted).validate := by
    intro omitted text h
    rw [ofText, ofDocument_of_writtenWithout (fault?_of_validate hvalid) hseconds h]
  have hall : c.WrittenWithout [] (.ofString (Value.object c.members).text) :=
    writtenWithout_text (.refl _)
  have hsame : c.defaulted [] = c := rfl
  refine ⟨hread, ?_⟩
  have hwhole := hread [] c.toJson.text hall
  rw [hsame, hvalid] at hwhole
  exact hwhole

/-- A configuration without a marker, with seconds that are no whole numbers. -/
def withoutMarker : Config :=
  { standard with
    pollIntervalSeconds := .finite twoAndAHalf
    timeoutSeconds := .finite twoAndAHalf
    terminalMarker := none }

/-- A marker that is `null` stays away. One that is left out is the standard marker, whatever
other members there are. -/
theorem marker_left_out_is_the_standard_one :
    let c := withoutMarker
    let omitted := ["terminal_marker", "timeout_seconds"]
    let members : Members :=
      ("note", .list [.null]) :: c.members.filter fun m => m.1 ∉ omitted
    let text := (Value.object members).text
    c.validate = .ok c ∧ c.SecondsReadBack ∧ c.WrittenWithout omitted (.ofString text) ∧
      ofText c.toJson.text = .ok c ∧ c.terminalMarker = none ∧
      ofText text = .ok (c.defaulted omitted) ∧
      (c.defaulted omitted).terminalMarker = some "finished" := by
  intro c omitted members text
  have hvalid : c.validate = .ok c := validate_eq_ok_iff.mpr ⟨by decide +kernel, rfl⟩
  have hseconds : c.SecondsReadBack := by
    rintro x (h | h)
    · cases h
      exact twoAndAHalf_readsBack
    · cases h
      exact twoAndAHalf_readsBack
  have hwritten : c.WrittenWithout omitted (.ofString text) := writtenWithout_text (.refl _)
  obtain ⟨hread, hwhole⟩ := what_is_left_out_takes_its_default hvalid hseconds
  have hdefaulted : (c.defaulted omitted).validate = .ok (c.defaulted omitted) :=
    validate_eq_ok_iff.mpr ⟨by decide +kernel, rfl⟩
  exact ⟨hvalid, hseconds, hwritten, hwhole, rfl,
    (hread omitted text hwritten).trans hdefaulted, rfl⟩

end Config

end Provisioning
