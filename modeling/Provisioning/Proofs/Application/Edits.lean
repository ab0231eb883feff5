-- Records that are edited: metadata is written entry by entry, and names are given. What
-- is read afterwards is what was written last, and where nothing was written, what was
-- there before.
import Provisioning.Application.Basic
import Provisioning.Proofs.Json.Members

namespace Provisioning

open Json

namespace Application

/-! ## Edits -/

/-- What can be done to a record. -/
inductive Edit
  | rename (name : String)
  | write (key field value : String)
deriving DecidableEq

def edit (a : Application) : Edit → Application
  | .rename name => a.withName name
  | .write key field value => a.withMetadata key field value

def editAll (a : Application) (edits : List Edit) : Application := edits.foldl edit a

/-- The name that an edit gives. -/
def Edit.name? : Edit → Option String
  | rename name => some name
  | write _ _ _ => none

/-- What an edit writes to a field under a key. -/
def Edit.value? (key field : String) : Edit → Option String
  | rename _ => none
  | write k f value => if k = key ∧ f = field then some value else none

/-- The name that was given last. -/
def lastName? (edits : List Edit) : Option String := (edits.filterMap Edit.name?).getLast?

/-- What was written last to a field under a key. -/
def lastValue? (edits : List Edit) (key field : String) : Option String :=
  (edits.filterMap (Edit.value? key field)).getLast?

/-- Something was written under a key. -/
def WrittenUnder (key : String) (edits : List Edit) : Prop :=
  ∃ field value, .write key field value ∈ edits

/-! ## One more edit -/

theorem editAll_snoc (a : Application) (edits : List Edit) (e : Edit) :
    a.editAll (edits ++ [e]) = (a.editAll edits).edit e := by
  simp [editAll]

theorem lastName?_snoc (edits : List Edit) (e : Edit) :
    lastName? (edits ++ [e]) = e.name?.or (lastName? edits) := by
  unfold lastName?
  rw [List.filterMap_append, List.getLast?_append]
  cases e <;> rfl

theorem lastValue?_snoc (edits : List Edit) (e : Edit) (key field : String) :
    lastValue? (edits ++ [e]) key field = (e.value? key field).or (lastValue? edits key field) := by
  unfold lastValue?
  rw [List.filterMap_append, List.getLast?_append, List.filterMap_cons]
  cases e.value? key field <;> rfl

theorem writtenUnder_snoc {key : String} {edits : List Edit} {e : Edit} :
    WrittenUnder key (edits ++ [e]) ↔
      WrittenUnder key edits ∨ ∃ field value, e = .write key field value := by
  simp only [WrittenUnder, List.mem_append, List.mem_singleton, exists_or, eq_comm]

/-! ## One write -/

/-- What stands in a field under a key, whatever it is. -/
def inMetadata? (a : Application) (key field : String) : Option Value :=
  (a.metadata key).bind (·.find? field)

section
variable (a : Application) (key field value : String)

theorem find?_withMetadata (k : String) :
    (a.withMetadata key field value).extra.find? k =
      if key = k then
        some (.object (Members.insert field (.string value) ((a.metadata key).getD [])))
      else a.extra.find? k :=
  Members.find?_insert _ _ _ _

theorem metadata_withMetadata (k : String) :
    (a.withMetadata key field value).metadata k =
      if key = k then some (Members.insert field (.string value) ((a.metadata key).getD []))
      else a.metadata k := by
  unfold metadata
  rw [find?_withMetadata]
  split <;> rfl

/-- One entry is written and all others stay, those of the same key among them. -/
theorem inMetadata?_withMetadata (k f : String) :
    (a.withMetadata key field value).inMetadata? k f =
      if key = k ∧ field = f then some (.string value) else a.inMetadata? k f := by
  unfold inMetadata?
  rw [metadata_withMetadata]
  by_cases hkey : key = k
  · subst hkey
    rw [if_pos rfl, Option.bind_some, Members.find?_insert]
    by_cases hfield : field = f
    · simp [hfield]
    · cases hmembers : a.metadata key <;> simp [hfield, Members.find?]
  · simp [hkey]

end

/-- The entries, and those of each object among them, stand in the order of their names. -/
def InOrder (a : Application) : Prop :=
  Members.Sorted a.extra ∧ ∀ key members, a.metadata key = some members → Members.Sorted members

theorem InOrder.withMetadata {a : Application} (h : a.InOrder) (key field value : String) :
    (a.withMetadata key field value).InOrder := by
  refine ⟨h.1.insert, ?_⟩
  intro k members hmembers
  rw [metadata_withMetadata] at hmembers
  split at hmembers
  · obtain rfl := Option.some.inj hmembers
    apply Members.Sorted.insert
    cases hknown : a.metadata key with
    | none => exact List.Pairwise.nil
    | some known => exact h.2 key known hknown
  · exact h.2 k members hmembers

/-! ## All edits -/

section
variable (a : Application) (edits : List Edit)

/-- No edit reaches the identifier and where the application lives. -/
theorem place_editAll :
    (a.editAll edits).guid = a.guid ∧ (a.editAll edits).space = a.space ∧
      (a.editAll edits).org = a.org := by
  induction edits using List.reverseRecOn with
  | nil => exact ⟨rfl, rfl, rfl⟩
  | append_singleton edits e ih =>
    rw [editAll_snoc]
    cases e with
    | rename name => exact ih
    | write key field value => exact ih

theorem name_editAll : (a.editAll edits).name = (lastName? edits).getD a.name := by
  induction edits using List.reverseRecOn with
  | nil => rfl
  | append_singleton edits e ih =>
    rw [editAll_snoc, lastName?_snoc]
    cases e with
    | rename name => rfl
    | write key field value => exact ih

/-- The law of the map of maps: the last value that was written, or what was there. -/
theorem inMetadata?_editAll (key field : String) :
    (a.editAll edits).inMetadata? key field =
      ((lastValue? edits key field).map .string).or (a.inMetadata? key field) := by
  induction edits using List.reverseRecOn with
  | nil => rfl
  | append_singleton edits e ih =>
    rw [editAll_snoc, lastValue?_snoc]
    cases e with
    | rename name => exact ih
    | write k f value =>
      simp only [edit, inMetadata?_withMetadata, Edit.value?]
      split
      · rfl
      · rw [ih, Option.none_or]

variable {a edits}

/-- Under a key that was not written nothing changes, be it an object or not. -/
theorem find?_editAll {key : String} (h : ¬ WrittenUnder key edits) :
    (a.editAll edits).extra.find? key = a.extra.find? key := by
  induction edits using List.reverseRecOn with
  | nil => rfl
  | append_singleton edits e ih =>
    rw [writtenUnder_snoc, not_or] at h
    rw [editAll_snoc, ← ih h.1]
    cases e with
    | rename name => rfl
    | write k f value =>
      have hother : k ≠ key := by
        rintro rfl
        exact h.2 ⟨f, value, rfl⟩
      exact (find?_withMetadata _ _ _ _ _).trans (if_neg hother)

/-- Under a key that was written stands an object. -/
theorem exists_metadata_editAll {key : String} (h : WrittenUnder key edits) :
    ∃ members, (a.editAll edits).metadata key = some members := by
  induction edits using List.reverseRecOn with
  | nil =>
    obtain ⟨field, value, hmem⟩ := h
    cases hmem
  | append_singleton edits e ih =>
    rw [editAll_snoc]
    cases e with
    | rename name =>
      refine ih ((writtenUnder_snoc.mp h).resolve_right ?_)
      rintro ⟨field, value, heq⟩
      cases heq
    | write k f value =>
      simp only [edit, metadata_withMetadata]
      by_cases hkey : k = key
      · exact ⟨_, if_pos hkey⟩
      · rw [if_neg hkey]
        refine ih ((writtenUnder_snoc.mp h).resolve_right ?_)
        rintro ⟨field, v, heq⟩
        cases heq
        exact hkey rfl

theorem InOrder.editAll (h : a.InOrder) : (a.editAll edits).InOrder := by
  induction edits using List.reverseRecOn with
  | nil => exact h
  | append_singleton edits e ih =>
    rw [editAll_snoc]
    cases e with
    | rename name => exact ih
    | write key field value => exact ih.withMetadata key field value

end

/-! ## The law -/

/-- What edits make of a record. -/
structure EditedTo (a : Application) (edits : List Edit) (b : Application) : Prop where
  guid_kept : b.guid = a.guid
  space_kept : b.space = a.space
  org_kept : b.org = a.org
  name_given : b.name = (lastName? edits).getD a.name
  text_written : ∀ key field value, lastValue? edits key field = some value →
    b.metadataText key field = some value
  /-- Beside what was written, an object keeps its fields, and any other value gives way. -/
  text_beside : ∀ key field, WrittenUnder key edits → lastValue? edits key field = none →
    b.metadataText key field =
      match a.extra.find? key with
      | some (.object members) => (Members.find? members field).bind Value.string?
      | _ => none
  text_elsewhere : ∀ key field, ¬ WrittenUnder key edits →
    b.metadataText key field = a.metadataText key field
  /-- A key that was written has an object, whose fields are the ones written and, of an
  object that was there before, all others. -/
  object_written : ∀ key, WrittenUnder key edits → ∃ members,
    b.extra.find? key = some (.object members) ∧
    ∀ field, Members.find? members field =
      match lastValue? edits key field with
      | some value => some (.string value)
      | none => (a.metadata key).bind (·.find? field)
  elsewhere : ∀ key, ¬ WrittenUnder key edits → b.extra.find? key = a.extra.find? key
  in_order : a.InOrder → b.InOrder
  managed_iff : ∀ key, b.isManaged key = true ↔
    ∃ name, b.metadataText key launcherNameField = some name ∧ name ≠ ""

theorem isManaged_iff (a : Application) (key : String) :
    a.isManaged key = true ↔
      ∃ name, a.metadataText key launcherNameField = some name ∧ name ≠ "" := by
  unfold isManaged
  cases a.metadataText key launcherNameField with
  | none => simp
  | some name => simp

theorem metadata_eq_some_iff {a : Application} {key : String} {members : Members} :
    a.metadata key = some members ↔ a.extra.find? key = some (.object members) := by
  unfold metadata
  rw [Option.bind_eq_some_iff]
  constructor
  · rintro ⟨v, hv, hmembers⟩
    cases v <;> cases hmembers
    exact hv
  · intro h
    exact ⟨_, h, rfl⟩

/-- Whatever record it is and whatever is written to it, in any order and with names given
in between: a field under a key reads as the value that was written there last. Where none
was, it reads as before, unless something that was no object had to give way to what was
written beside it. The fixed fields but the name, and everything under other keys, stay. -/
theorem metadata_is_what_was_written_last (a : Application) (edits : List Edit) :
    a.EditedTo edits (a.editAll edits) where
  guid_kept := (place_editAll a edits).1
  space_kept := (place_editAll a edits).2.1
  org_kept := (place_editAll a edits).2.2
  name_given := name_editAll a edits
  text_written := by
    intro key field value h
    change ((a.editAll edits).inMetadata? key field).bind Value.string? = some value
    rw [inMetadata?_editAll, h]
    rfl
  text_beside := by
    intro key field _ h
    change ((a.editAll edits).inMetadata? key field).bind Value.string? = _
    rw [inMetadata?_editAll, h, Option.map_none, Option.none_or, inMetadata?, metadata]
    cases a.extra.find? key with
    | none => rfl
    | some v => cases v <;> rfl
  text_elsewhere := by
    intro key field h
    unfold metadataText metadata
    rw [find?_editAll h]
  object_written := by
    intro key h
    obtain ⟨members, hmembers⟩ := exists_metadata_editAll (a := a) h
    refine ⟨members, metadata_eq_some_iff.mp hmembers, ?_⟩
    intro field
    have hentry := inMetadata?_editAll a edits key field
    rw [inMetadata?, hmembers, Option.bind_some] at hentry
    rw [hentry]
    cases lastValue? edits key field <;> rfl
  elsewhere := fun _ h => find?_editAll h
  in_order := InOrder.editAll
  managed_iff := isManaged_iff _

/-- A list gives way to the object that is written in its place; of the object beside it
the other fields stay. -/
example :
    let env : Value := .object [("N", .null), ("S", .string "up")]
    let a : Application := { guid := "a1", extra := [("env", env), ("vars", .list [])] }
    let b := a.editAll
      [.write "vars" "S" "new", .write "env" "N" "x", .rename "atk", .write "env" "N" "y"]
    b.name = "atk" ∧ b.metadataText "vars" "S" = some "new" ∧ b.metadataText "env" "N" = some "y" ∧
      b.metadataText "env" "S" = some "up" := by
  decide +kernel

end Application

end Provisioning
