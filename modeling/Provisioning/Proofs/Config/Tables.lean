-- The tables that a configuration can come to have, however it is set, loaded and
-- overridden: each is the preset one or a list that was asked for and passed the check,
-- and a step that is refused leaves the table alone.
import Provisioning.Config.Environment
import Provisioning.Config.File
import Provisioning.Proofs.CommandLine.Layers
import Provisioning.Proofs.Stage.Listing
import Provisioning.Proofs.Stage.Sources

namespace Provisioning

open Json

/-! ## Steps -/

namespace Config

/-- The settings that are not the table. -/
inductive Setting
  | baseUrl (url : String)
  | pollInterval (length : Duration)
  | pollIntervalSeconds (seconds : Double)
  | timeoutSeconds (seconds : Double)
  | userAgent (agent : String)
  | metadataKey (key : String)
  | stateField (field : String)
  | terminalMarker (marker : Option String)

def set (c : Config) : Setting → Config
  | .baseUrl url => { c with baseUrl := url }
  | .pollInterval length => c.withPollInterval length
  | .pollIntervalSeconds seconds => { c with pollIntervalSeconds := seconds }
  | .timeoutSeconds seconds => { c with timeoutSeconds := seconds }
  | .userAgent agent => { c with userAgent := agent }
  | .metadataKey key => { c with metadataKey := key }
  | .stateField field => { c with stateField := field }
  | .terminalMarker marker => { c with terminalMarker := marker }

/-- What can be done to a configuration. -/
inductive Step
  | set (setting : Setting)
  | scheme (s : Scheme)
  /-- A table of stages as they are given. -/
  | stages (list : List Stage)
  /-- A table of names, numbered from 1. -/
  | names (list : List String)
  | environment (e : Environment)
  /-- Another configuration in its place, from a text. -/
  | text (json : String)
  | file (content : Option (List UInt8))

/-- The configuration after a step, unless the step is refused. -/
def attempt (c : Config) : Step → Option Config
  | .set setting => some (c.set setting)
  | .scheme s => some (c.withScheme s)
  | .stages list => (StageTable.ofStages list).toOption.map fun t => { c with stages := t }
  | .names list => (StageTable.ofNames list).toOption.map fun t => { c with stages := t }
  | .environment e => (c.withEnvironment e).toOption
  | .text json => (ofText json).toOption
  | .file content => (ofFile content).toOption

/-- A step that is refused changes nothing. -/
def after (c : Config) (step : Step) : Config := (c.attempt step).getD c

def afterAll (c : Config) (steps : List Step) : Config := steps.foldl after c

/-! ## What a document brings -/

/-- A tree has this node for its stages: by name, or in its place in a list. -/
def StagesIn (node : Node) : Node → Prop
  | .object members _ => (.ok "stages", node) ∈ members
  | .list items _ => ("stages", node) ∈ Given.names.zip items
  | _ => False

/-- A text says that these are the stages, or says nothing of stages. -/
def Says (json : String) (stages : List Stage) : Prop :=
  stages = provisioningStages ∨
    ∃ node depth, StagesIn node (Document.ofString json).root ∧
      decodeList depth Stage.ofNode node = .ok stages

/-- Where a table comes from that a reader has come to hold. -/
def Given.Holds (given : Node → Prop) (depth : Nat) (g : Given) : Prop :=
  ∀ t, g.stages = some t → ∃ node, given node ∧ StageTable.ofNode depth node = .ok t

/-- One field more: only the one named for the stages brings a table. -/
theorem Given.Holds.read {given : Node → Prop} {depth : Nat} {g next : Given}
    (h : g.Holds given depth) {name : String} {node : Node}
    (hgiven : name = "stages" → given node)
    (hread : Given.read depth name g node = some (.ok next)) : next.Holds given depth := by
  unfold Given.read at hread
  split at hread
  case h_8 =>
    obtain ⟨found, hfield, rfl⟩ := map_eq_ok_iff.mp (Option.some.inj hread)
    unfold readField at hfield
    split at hfield
    · cases hfield
    · obtain ⟨table, htable, rfl⟩ := map_eq_ok_iff.mp hfield
      rintro t ⟨⟩
      exact ⟨node, hgiven rfl, htable⟩
  case h_9 => cases hread
  all_goals
    obtain ⟨found, -, rfl⟩ := map_eq_ok_iff.mp (Option.some.inj hread)
    exact h

/-- All members of an object. -/
theorem Given.Holds.readMembers {depth : Nat} {members : List (Key × Node)} {close : ObjectEnd}
    {g last : Given} (h : g.Holds (fun node => (.ok "stages", node) ∈ members) depth)
    (hread : Json.readMembers (Given.read depth) close g members = .ok last) :
    last.Holds (fun node => (.ok "stages", node) ∈ members) depth := by
  suffices hall : ∀ (rest : List (Key × Node)) (g : Given), rest ⊆ members →
      g.Holds (fun node => (.ok "stages", node) ∈ members) depth →
      Json.readMembers (Given.read depth) close g rest = .ok last →
      last.Holds (fun node => (.ok "stages", node) ∈ members) depth from
    hall members g (List.Subset.refl _) h hread
  intro rest
  induction rest with
  | nil =>
    intro g _ hg hread
    unfold Json.readMembers at hread
    split at hread
    · cases hread
    · cases hread
      exact hg
  | cons m rest ih =>
    intro g hsub hg hread
    obtain ⟨hm, hrest⟩ := List.cons_subset.mp hsub
    obtain ⟨key, node⟩ := m
    cases key with
    | error fault => cases hread
    | ok name =>
      simp only [Json.readMembers] at hread
      split at hread
      · cases hread
      · rename_i next hnext
        refine ih next hrest (hg.read ?_ hnext) hread
        rintro rfl
        exact hm
      · split at hread
        · cases hread
        · exact ih g hrest hg hread

/-- The items of a list, in the order of the fields. -/
theorem Given.Holds.readList {depth : Nat} {given : Node → Prop} {close : ListEnd}
    {names : List String} {items : List Node} {g last : Given}
    (hgiven : ∀ node, ("stages", node) ∈ names.zip items → given node)
    (h : g.Holds given depth) (hread : Given.readList depth close g names items = .ok last) :
    last.Holds given depth := by
  induction names generalizing g items with
  | nil =>
    obtain ⟨_, -, rfl⟩ := map_eq_ok_iff.mp hread
    exact h
  | cons name names ih =>
    cases items with
    | nil =>
      unfold Given.readList at hread
      split at hread
      · cases hread
      · cases hread
        exact h
    | cons node items =>
      have hrest : ∀ node', ("stages", node') ∈ names.zip items → given node' := by
        intro node' hmem
        exact hgiven node' (List.mem_cons_of_mem _ hmem)
      simp only [Given.readList] at hread
      split at hread
      · rename_i next hnext
        refine ih hrest (h.read ?_ hnext) hread
        rintro rfl
        exact hgiven node List.mem_cons_self
      · cases hread
      · exact ih hrest h hread

/-- What a reader holds is completed by the preset table. -/
theorem Given.Holds.complete {given : Node → Prop} {depth : Nat} {g : Given}
    (h : g.Holds given depth) :
    g.complete.stages = provisioningTable ∨
      ∃ node, given node ∧ decodeList depth Stage.ofNode node = .ok g.complete.stages.stages ∧
        tableFault? g.complete.stages.stages = none := by
  cases hs : g.stages with
  | none =>
    left
    simp only [Given.complete, hs, Option.getD_none]
    rfl
  | some t =>
    obtain ⟨node, hgiven, hread⟩ := h t hs
    have htable : g.complete.stages = t := by simp only [Given.complete, hs, Option.getD_some]
    rw [htable]
    exact .inr ⟨node, hgiven, StageTable.ofNode_eq_ok_iff.mp hread⟩

/-- The table of a configuration in a document is the preset one, or it stands there and
has passed the check. -/
theorem says_of_ofNode {depth : Nat} {root : Node} {c : Config} (h : ofNode depth root = .ok c) :
    c.stages = provisioningTable ∨
      ∃ node, StagesIn node root ∧
        decodeList (depth - 1) Stage.ofNode node = .ok c.stages.stages ∧
        tableFault? c.stages.stages = none := by
  have hempty : ∀ {given : Node → Prop}, Given.Holds given (depth - 1) {} := by
    intro given t ht
    cases ht
  unfold ofNode at h
  split at h
  · split at h
    · cases h
    · obtain ⟨g, hread, rfl⟩ := map_eq_ok_iff.mp h
      exact (hempty.readMembers hread).complete
  · split at h
    · cases h
    · obtain ⟨g, hread, rfl⟩ := map_eq_ok_iff.mp h
      exact (hempty.readList (fun _ hmem => hmem) hread).complete
  · exact absurd h (mismatch_ne_ok _ _ _)

theorem says_of_ofText {json : String} {c : Config} (h : ofText json = .ok c) :
    Says json c.stages.stages ∧ tableFault? c.stages.stages = none := by
  obtain ⟨hdocument, -⟩ := ofText_eq_ok_iff.mp h
  have hroot : ofNode depthLimit (Document.ofString json).root = .ok c := by
    unfold ofDocument Document.decode at hdocument
    split at hdocument
    · cases hdocument
    · rename_i d hd
      split at hdocument
      · rw [hd, Except.ok.inj hdocument]
      · cases hdocument
  rcases says_of_ofNode hroot with hpreset | ⟨node, hnode, hread, hpass⟩
  · rw [hpreset]
    exact ⟨.inl rfl, by decide⟩
  · exact ⟨.inr ⟨node, _, hnode, hread⟩, hpass⟩

/-! ## What a step brings -/

/-- A step asks for these stages. -/
def Step.Brings : Step → List Stage → Prop
  | .set _, _ => False
  | .scheme _, l => l = provisioningStages
  | .stages list, l => l = list
  | .names list, l => l = StageTable.numbered 1 list
  | .environment e, l => e.scheme ≠ none ∧ l = provisioningStages
  | .text json, l => Says json l
  | .file content, l => ∃ json, fileText content = .ok json ∧ Says json l

theorem set_stages (c : Config) (setting : Setting) : (c.set setting).stages = c.stages := by
  -- field by field, so that no number is ever computed
  rcases c with ⟨_, _, _, _, _, _, _, table⟩
  cases setting <;> rfl

theorem toOption_eq_some_iff {ε α : Type} {x : Except ε α} {a : α} :
    x.toOption = some a ↔ x = .ok a := by
  cases x <;> simp [Except.toOption]

/-- A step leaves the table alone or brings one that has passed the check. -/
theorem stages_of_attempt {c d : Config} {step : Step} (h : c.attempt step = some d) :
    d.stages = c.stages ∨
      (step.Brings d.stages.stages ∧ tableFault? d.stages.stages = none) := by
  have hpreset : tableFault? provisioningStages = none := by decide
  cases step with
  | set setting =>
    left
    rw [← Option.some.inj h, set_stages]
  | scheme s =>
    right
    rw [← Option.some.inj h]
    exact ⟨rfl, hpreset⟩
  | stages list =>
    right
    obtain ⟨t, ht, rfl⟩ := Option.map_eq_some_iff.mp h
    obtain ⟨hpass, hstages⟩ := StageTable.ofStages_eq_ok_iff.mp (toOption_eq_some_iff.mp ht)
    exact ⟨hstages, hstages ▸ hpass⟩
  | names list =>
    right
    obtain ⟨t, ht, rfl⟩ := Option.map_eq_some_iff.mp h
    obtain ⟨hpass, hstages⟩ := StageTable.ofStages_eq_ok_iff.mp (toOption_eq_some_iff.mp ht)
    exact ⟨hstages, hstages ▸ hpass⟩
  | environment e =>
    obtain ⟨l, hstated, -, rfl⟩ := withEnvironment_eq_ok_iff.mp (toOption_eq_some_iff.mp h)
    have hscheme := hstated.scheme
    cases hl : l.scheme with
    | none =>
      left
      simp [ConfigLayer.cover, hl, reporting]
    | some s =>
      right
      have hset : e.scheme ≠ none := by
        intro hnone
        rw [hnone, readsAs_none_iff, hl] at hscheme
        contradiction
      have htable : (l.cover c).stages = provisioningTable := by
        simp [ConfigLayer.cover, hl, Scheme.reporting]
      rw [htable]
      exact ⟨⟨hset, rfl⟩, hpreset⟩
  | text json =>
    right
    exact says_of_ofText (toOption_eq_some_iff.mp h)
  | file content =>
    right
    obtain ⟨json, hjson, hread⟩ := ofFile_eq_ok_iff.mp (toOption_eq_some_iff.mp h)
    obtain ⟨hstated, hpass⟩ := says_of_ofText hread
    exact ⟨⟨json, hjson, hstated⟩, hpass⟩

theorem stages_of_after (c : Config) (step : Step) :
    (c.after step).stages = c.stages ∨
      (step.Brings (c.after step).stages.stages ∧
        tableFault? (c.after step).stages.stages = none) := by
  unfold after
  cases h : c.attempt step with
  | none => exact .inl rfl
  | some d => exact stages_of_attempt h

/-- After any steps, the table is the one of the start or one that a step has brought. -/
theorem stages_of_afterAll (c : Config) (steps : List Step) :
    (c.afterAll steps).stages = c.stages ∨
      ∃ step ∈ steps, step.Brings (c.afterAll steps).stages.stages ∧
        tableFault? (c.afterAll steps).stages.stages = none := by
  induction steps generalizing c with
  | nil => exact .inl rfl
  | cons step rest ih =>
    have hafter : c.afterAll (step :: rest) = (c.after step).afterAll rest := rfl
    rw [hafter]
    rcases ih (c.after step) with hsame | ⟨later, hmem, hbrings⟩
    · rw [hsame]
      rcases stages_of_after c step with hkept | hbrings
      · exact .inl hkept
      · exact .inr ⟨step, List.mem_cons_self, hbrings⟩
    · exact .inr ⟨later, List.mem_cons_of_mem _ hmem, hbrings⟩

/-! ## What everyone relies on -/

/-- A table in order: it has a last stage, and a level past that one is still a 32-bit
number. -/
structure TableInOrder (c : Config) : Prop where
  nonempty : c.stages.stages ≠ []
  names_differ : (c.stages.stages.map Stage.name).Nodup
  ordinals_increase : (c.stages.stages.map Stage.ordinal).Pairwise (· < ·)
  ordinals_bounded : ∀ s ∈ c.stages.stages, 1 ≤ s.ordinal ∧ s.ordinal < UInt32.size - 1
  last_defined : c.stages.stages.getLast? = some c.stages.last
  next_level_fits :
    (UInt32.ofNat c.stages.last.ordinal + 1).toNat = c.stages.last.ordinal + 1
  levels_fit : ∀ state level, c.stateLevel state = some level →
    (UInt32.ofNat level).toNat = level

/-- A list that has passed the check is in order. -/
theorem tableInOrder_of_pass {c : Config} (h : tableFault? c.stages.stages = none) :
    c.TableInOrder := by
  have hwell := wellFormed_of_tableFault? h
  have hlast : c.stages.stages.getLast? = some c.stages.last :=
    List.getLast?_eq_some_getLast hwell.nonempty
  have hbelow := hwell.unreserved c.stages.last (List.mem_of_getLast? hlast)
  unfold reservedOrdinal UInt32.size at hbelow
  exact {
    nonempty := hwell.nonempty
    names_differ := hwell.names
    ordinals_increase := hwell.increasing
    ordinals_bounded := fun s hs => ⟨hwell.positive s hs, hwell.unreserved s hs⟩
    last_defined := hlast
    next_level_fits := by
      rw [UInt32.toNat_add, UInt32.toNat_ofNat']
      have hone : (1 : UInt32).toNat = 1 := rfl
      rw [hone]
      omega
    levels_fit := by
      intro state level hlevel
      have hle := c.stateLevel_le_reserved hlevel
      unfold reservedOrdinal UInt32.size at hle
      rw [UInt32.toNat_ofNat']
      omega }

/-! ## The law -/

/-- Where a configuration can start. -/
inductive IsStart : Config → Prop
  | standard : IsStart .standard
  | scheme (s : Scheme) : IsStart (.ofScheme s)
  | text {json : String} {c : Config} (h : ofText json = .ok c) : IsStart c

theorem IsStart.pass {c : Config} (h : c.IsStart) : tableFault? c.stages.stages = none := by
  have hpreset : tableFault? provisioningStages = none := by decide
  cases h with
  | standard => exact hpreset
  | scheme s => exact hpreset
  | text h => exact (says_of_ofText h).2

theorem attempt_stages_iff {c d : Config} {list : List Stage} :
    c.attempt (.stages list) = some d ↔
      WellFormed list ∧ ∃ t, t.stages = list ∧ d = { c with stages := t } := by
  simp only [attempt, Option.map_eq_some_iff, toOption_eq_some_iff,
    StageTable.ofStages_eq_ok_iff, tableFault?_eq_none_iff]
  constructor
  · rintro ⟨t, ⟨hwell, hstages⟩, rfl⟩
    exact ⟨hwell, t, hstages, rfl⟩
  · rintro ⟨hwell, t, hstages, rfl⟩
    exact ⟨t, ⟨hwell, hstages⟩, rfl⟩

/-- Names make the table of the stages that they are numbered as. -/
theorem attempt_names (c : Config) (names : List String) :
    c.attempt (.names names) = c.attempt (.stages (StageTable.numbered 1 names)) :=
  rfl

/-- From any start and after any steps, those that are refused among them, the table is in
order. It is the one of the start or one that a step has brought. A list is taken exactly
if it is a table, as it stands and without a change to anything else; names are refused
only if there are none, one stands twice or they are too many. And whatever a text, a file
or the environment gives is valid. -/
theorem every_table_is_in_order_and_every_load_is_valid {start : Config} (hstart : start.IsStart)
    (steps : List Step) :
    let c := start.afterAll steps
    c.TableInOrder ∧
      (c.stages = start.stages ∨ ∃ step ∈ steps, step.Brings c.stages.stages) ∧
      (∀ list d, c.attempt (.stages list) = some d ↔
        WellFormed list ∧ ∃ t, t.stages = list ∧ d = { c with stages := t }) ∧
      (∀ names, c.attempt (.names names) = none ↔
        names = [] ∨ ¬ names.Nodup ∨ reservedOrdinal ≤ names.length) ∧
      (∀ json d, ofText json = .ok d → d.validate = .ok d) ∧
      (∀ content d, ofFile content = .ok d → d.validate = .ok d) ∧
      ∀ (base : Config) e d, base.withEnvironment e = .ok d → d.validate = .ok d := by
  intro c
  have hvalid : ∀ json d, ofText json = .ok d → d.validate = .ok d := by
    intro json d h
    exact validate_eq_ok_iff.mpr ⟨(ofText_eq_ok_iff.mp h).2, rfl⟩
  refine ⟨?_, ?_, fun list d => attempt_stages_iff, ?_, hvalid, ?_, ?_⟩
  · apply tableInOrder_of_pass
    rcases stages_of_afterAll start steps with hsame | ⟨-, -, -, hpass⟩
    · simp only [c, hsame]
      exact hstart.pass
    · exact hpass
  · rcases stages_of_afterAll start steps with hsame | ⟨step, hmem, hbrings, -⟩
    · exact .inl hsame
    · exact .inr ⟨step, hmem, hbrings⟩
  · intro names
    have htaken : c.attempt (.names names) ≠ none ↔
        WellFormed (StageTable.numbered 1 names) := by
      rw [attempt_names, Option.ne_none_iff_exists']
      simp only [attempt_stages_iff]
      constructor
      · rintro ⟨d, hwell, -⟩
        exact hwell
      · intro hwell
        exact ⟨_, hwell, ⟨_, hwell⟩, rfl, rfl⟩
    rw [StageTable.wellFormed_numbered_iff] at htaken
    rw [← not_iff_not]
    simp only [← ne_eq, htaken, not_or, not_not, Nat.not_le]
  · intro content d h
    obtain ⟨json, -, hread⟩ := ofFile_eq_ok_iff.mp h
    exact hvalid json d hread
  · intro base e d h
    obtain ⟨l, -, hpass, rfl⟩ := withEnvironment_eq_ok_iff.mp h
    exact validate_eq_ok_iff.mpr ⟨hpass, rfl⟩

/-- Two stages with one ordinal, a name that stands twice and an unknown scheme are refused,
each without a trace. -/
theorem table_of_two_names_after_refused_steps :
    let steps : List Step :=
      [.stages [⟨"fetch", 2⟩, ⟨"unpack", 2⟩], .names ["fetch", "unpack"],
        .names ["unpack", "unpack"], .environment { scheme := some "soon" }]
    let c := (ofScheme .environmentJson).afterAll steps
    c.stages.stages = [⟨"fetch", 1⟩, ⟨"unpack", 2⟩] ∧ c.metadataKey = "environment_json" ∧
      c.TableInOrder := by
  intro steps c
  refine ⟨?_, ?_, (every_table_is_in_order_and_every_load_is_valid (.scheme _) steps).1⟩
  · decide +kernel
  · decide +kernel

end Config

end Provisioning
