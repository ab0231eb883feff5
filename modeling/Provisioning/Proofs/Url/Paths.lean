-- The paths that are read from texts. No segment has a slash in it, so a path and its
-- text tell each other, and a slash at the end is an empty segment.
import Mathlib.Data.List.Basic
import Mathlib.Data.List.Induction
import Provisioning.Proofs.Url.Segments

namespace Provisioning

/-! ## Parts between separators -/

section
variable {separates : Char → Bool}

theorem not_separates_of_mem_splitParts {cs part : List Char} (h : part ∈ splitParts separates cs)
    {c : Char} (hc : c ∈ part) : separates c = false := by
  induction cs generalizing part with
  | nil =>
    rw [splitParts, List.mem_singleton] at h
    rw [h] at hc
    cases hc
  | cons d cs ih =>
    rw [splitParts] at h
    split at h
    · rcases List.mem_cons.mp h with rfl | hpart
      · cases hc
      · exact ih hpart hc
    · rename_i hd
      split at h
      · rename_i first parts hparts
        rcases List.mem_cons.mp h with rfl | hpart
        · rcases List.mem_cons.mp hc with rfl | hfirst
          · simpa using hd
          · exact ih (hparts ▸ List.mem_cons_self) hfirst
        · exact ih (hparts ▸ List.mem_cons_of_mem _ hpart) hc
      · rename_i hparts
        exact absurd hparts (splitParts_ne_nil _ _)

/-- A separator at the end leaves an empty part behind it. -/
theorem splitParts_concat (cs : List Char) {c : Char} (h : separates c = true) :
    splitParts separates (cs ++ [c]) = splitParts separates cs ++ [[]] := by
  induction cs with
  | nil => simp [splitParts, h]
  | cons d cs ih =>
    rw [List.cons_append, splitParts, splitParts, ih]
    split
    · rfl
    · cases hparts : splitParts separates cs with
      | nil => exact absurd hparts (splitParts_ne_nil _ _)
      | cons part parts => rfl

/-- Characters that do not separate go to the first part. -/
theorem splitParts_append {front : List Char} (h : ∀ c ∈ front, separates c = false)
    {cs part : List Char} {parts : List (List Char)} (hcs : splitParts separates cs = part :: parts) :
    splitParts separates (front ++ cs) = (front ++ part) :: parts := by
  induction front with
  | nil => exact hcs
  | cons c front ih =>
    obtain ⟨hc, hfront⟩ := List.forall_mem_cons.mp h
    rw [List.cons_append, splitParts, hc, ih hfront]
    rfl

end

/-! ## Segments and their text -/

/-- No segment has a slash in it. -/
def SlashFree (names : List String) : Prop := ∀ name ∈ names, '/' ∉ name.toList

theorem slashFree_concat_empty_iff {names : List String} :
    SlashFree (names ++ [""]) ↔ SlashFree names := by
  unfold SlashFree
  rw [List.forall_mem_append, List.forall_mem_singleton]
  exact and_iff_left List.not_mem_nil

theorem toList_text_segments (names : List String) :
    (UrlPath.segments names).text.toList = names.flatMap fun name => '/' :: name.toList := by
  induction names with
  | nil => rfl
  | cons name names ih =>
    rw [UrlPath.text] at ih ⊢
    rw [List.map_cons, String.join_cons, String.toList_append, ih]
    simp

theorem splitParts_text {names : List String} (h : SlashFree names) :
    splitParts (· == '/') (UrlPath.segments names).text.toList = [] :: names.map String.toList := by
  rw [toList_text_segments]
  induction names with
  | nil => rfl
  | cons name names ih =>
    obtain ⟨hname, hnames⟩ := List.forall_mem_cons.mp h
    have hfree : ∀ c ∈ name.toList, (c == '/') = false := by
      intro c hc
      rw [beq_eq_false_iff_ne]
      rintro rfl
      exact hname hc
    rw [List.flatMap_cons, List.cons_append, splitParts, splitParts_append hfree (ih hnames)]
    simp

theorem map_toList_eq_iff {names others : List String} :
    names.map String.toList = others.map String.toList ↔ names = others := by
  have hinjective : Function.Injective String.toList := fun _ _ => String.toList_inj.mp
  exact (List.map_injective_iff.mpr hinjective).eq_iff

theorem eq_of_text_segments {names others : List String} (hnames : SlashFree names)
    (hothers : SlashFree others)
    (h : (UrlPath.segments names).text = (UrlPath.segments others).text) : names = others := by
  have hparts := splitParts_text hnames
  rw [h, splitParts_text hothers] at hparts
  exact (map_toList_eq_iff.mp (List.cons.inj hparts).2).symm

theorem text_concat_empty (names : List String) :
    (UrlPath.segments (names ++ [""])).text = (UrlPath.segments names).text ++ "/" := by
  rw [Url.text_segments_append]
  rfl

/-- A path's text ends in a slash if the last segment is empty. -/
theorem getLast?_text_iff {names : List String} (h : SlashFree names) :
    (UrlPath.segments names).text.toList.getLast? = some '/' ↔ names.getLast? = some "" := by
  rw [toList_text_segments]
  induction names using List.reverseRecOn with
  | nil => simp
  | append_singleton front last _ =>
    rw [List.getLast?_concat, Option.some.injEq, List.flatMap_append]
    have hlast : '/' ∉ last.toList := h last (by simp)
    constructor
    · intro hslash
      cases hchars : last.toList with
      | nil => exact String.toList_inj.mp hchars
      | cons c cs =>
        have hend : (c :: cs).getLast? = some '/' := by
          simpa [hchars, List.getLast?_append] using hslash
        exact absurd (hchars ▸ List.mem_of_getLast? hend) hlast
    · rintro rfl
      simp

namespace Url

/-! ## Where segments lead -/

section
variable {isFile : Bool} {path segments : List (List Char)} {segment s : List Char}

theorem mem_above (h : s ∈ above isFile path) : s ∈ path := by
  unfold above at h
  split at h
  · exact h
  · exact List.dropLast_subset path h

theorem mem_enter {isLast : Bool} (h : s ∈ enter isFile path segment isLast) :
    s ∈ path ∨ s = segment ∨ s = [] := by
  have hclose (front : List (List Char)) (hs : s ∈ if isLast then front ++ [[]] else front) :
      s ∈ front ∨ s = [] := by
    cases isLast with
    | false => exact .inl hs
    | true => simpa using hs
  unfold enter at h
  dsimp only at h
  split at h
  · rcases hclose _ h with hs | hs
    · exact .inl (mem_above hs)
    · exact .inr (.inr hs)
  split at h
  · exact (hclose _ h).imp_right .inr
  · rw [List.mem_append, List.mem_singleton] at h
    exact h.imp_right .inl

theorem mem_resolve (h : s ∈ resolve isFile path segments) :
    s ∈ path ∨ s ∈ segments ∨ s = [] := by
  induction segments generalizing path with
  | nil => exact .inl h
  | cons segment segments ih =>
    rcases ih h with hs | hs | hs
    · rcases mem_enter hs with hs | rfl | hs
      · exact .inl hs
      · exact .inr (.inl List.mem_cons_self)
      · exact .inr (.inr hs)
    · exact .inr (.inl (List.mem_cons_of_mem _ hs))
    · exact .inr (.inr hs)

/-- The last segment is no way through the path if the path does not end in a slash. -/
theorem not_dots_of_last (h : (enter isFile path segment true).getLast? ≠ some []) :
    isDoubleDot segment ≠ true ∧ isSingleDot segment ≠ true := by
  unfold enter at h
  dsimp only at h
  constructor
  · intro hdots
    rw [if_pos hdots] at h
    exact h List.getLast?_concat
  · intro hdot
    rw [if_pos hdot] at h
    apply h
    split <;> exact List.getLast?_concat

/-- An empty segment after the others stays, unless the path ends in one already. -/
theorem resolve_concat (hne : segments ≠ [])
    (hend : (resolve isFile path segments).getLast? ≠ some []) :
    resolve isFile path (segments ++ [[]]) = resolve isFile path segments ++ [[]] := by
  induction segments generalizing path with
  | nil => exact absurd rfl hne
  | cons segment segments ih =>
    cases segments with
    | nil =>
      obtain ⟨hdouble, hsingle⟩ := not_dots_of_last hend
      have henter : ∀ isLast, enter isFile path segment isLast = path ++ [segment] := by
        intro isLast
        rw [enter, if_neg hdouble, if_neg hsingle]
      change enter isFile (enter isFile path segment false) [] true =
        enter isFile path segment true ++ [[]]
      rw [henter, henter]
      rfl
    | cons next segments => exact ih (List.cons_ne_nil _ _) hend

end

/-! ## Reading a path -/

theorem getLast?_map_ofList {path : List (List Char)} :
    (path.map String.ofList).getLast? = some "" ↔ path.getLast? = some [] := by
  rw [List.getLast?_map, Option.map_eq_some_iff]
  constructor
  · rintro ⟨last, hlast, hempty⟩
    rw [hlast, String.ofList_eq_empty_iff.mp hempty]
  · intro hlast
    exact ⟨[], hlast, rfl⟩

section
variable {special isFile : Bool}

theorem slashFree_pathOf (special isFile : Bool) (text : List Char) :
    SlashFree (pathOf special text isFile) := by
  intro name hname hslash
  obtain ⟨s, hs, rfl⟩ := List.mem_map.mp hname
  rw [String.toList_ofList] at hslash
  rcases mem_resolve hs with hs | hs | rfl
  · cases hs
  · obtain ⟨part, hpart, rfl⟩ := List.mem_map.mp hs
    have hno := not_separates_of_mem_splitParts hpart (Percent.slash_mem_of_encode hslash)
    cases hno
  · cases hslash

theorem rootedPathOf_cons (special isFile : Bool) (c : Char) (rest : List Char) :
    rootedPathOf special (c :: rest) isFile =
      if isSlash special c then pathOf special rest isFile
      else pathOf special (c :: rest) isFile := rfl

theorem slashFree_rootedPathOf (special isFile : Bool) (text : List Char) :
    SlashFree (rootedPathOf special text isFile) := by
  cases text with
  | nil => cases special <;> simp [rootedPathOf, SlashFree]
  | cons c rest =>
    rw [rootedPathOf_cons]
    split <;> exact slashFree_pathOf _ _ _

theorem slashFree_filePathOf (text : List Char) : SlashFree (filePathOf text) := by
  have hfree : SlashFree ((rootedPathOf true text true).dropWhile String.isEmpty) := by
    intro name hname
    exact slashFree_rootedPathOf _ _ _ name ((List.dropWhile_suffix _).mem hname)
  unfold filePathOf
  split
  · simp [SlashFree]
  · rename_i first rest hparts
    rw [hparts] at hfree
    obtain ⟨hfirst, hrest⟩ := List.forall_mem_cons.mp hfree
    split
    · apply List.forall_mem_cons.mpr ⟨_, hrest⟩
      intro hslash
      rw [String.toList_ofList] at hslash
      rcases List.mem_append.mp hslash with hslash | hslash
      · exact hfirst (List.mem_of_mem_take hslash)
      · exact absurd hslash (by decide)
    · exact hfree

theorem pathOf_concat {text : List Char} (hend : (pathOf special text isFile).getLast? ≠ some "") :
    pathOf special (text ++ ['/']) isFile = pathOf special text isFile ++ [""] := by
  rw [pathOf, Ne, getLast?_map_ofList] at hend
  have hne : (splitParts (isSlash special) text).map (Percent.encode .path) ≠ [] := by
    rw [Ne, List.map_eq_nil_iff]
    exact splitParts_ne_nil _ _
  have hslash : isSlash special '/' = true := rfl
  have hempty : Percent.encode .path [] = [] := rfl
  rw [pathOf, splitParts_concat text hslash, List.map_append, List.map_singleton, hempty,
    resolve_concat hne hend, List.map_append]
  rfl

theorem rootedPathOf_concat {text : List Char}
    (hend : (rootedPathOf special text isFile).getLast? ≠ some "") :
    rootedPathOf special (text ++ ['/']) isFile = rootedPathOf special text isFile ++ [""] := by
  cases text with
  | nil =>
    cases special with
    | true => exact absurd rfl hend
    | false => rfl
  | cons c rest =>
    rw [rootedPathOf_cons] at hend
    rw [List.cons_append, rootedPathOf_cons, rootedPathOf_cons]
    split
    · rename_i hc
      rw [if_pos hc] at hend
      exact pathOf_concat hend
    · rename_i hc
      rw [if_neg hc] at hend
      exact pathOf_concat hend

end

theorem filePathOf_concat {text : List Char} (hend : (filePathOf text).getLast? ≠ some "") :
    filePathOf (text ++ ['/']) = filePathOf text ++ [""] := by
  have hall : (rootedPathOf true text true).dropWhile String.isEmpty ≠ [] := by
    intro hnone
    unfold filePathOf at hend
    rw [hnone] at hend
    exact hend rfl
  have hrooted : (rootedPathOf true text true).getLast? ≠ some "" := by
    intro hlast
    cases hparts : (rootedPathOf true text true).dropWhile String.isEmpty with
    | nil => exact hall hparts
    | cons first rest =>
      have hfirst := List.head?_dropWhile_not String.isEmpty (rootedPathOf true text true)
      rw [hparts] at hfirst
      rw [← List.takeWhile_append_dropWhile (p := String.isEmpty) (l := rootedPathOf true text true),
        hparts, List.getLast?_append] at hlast
      cases rest with
      | nil => simp_all
      | cons next rest =>
        apply hend
        unfold filePathOf
        rw [hparts]
        dsimp only
        split <;> simpa using hlast
  have hmore : (rootedPathOf true (text ++ ['/']) true).dropWhile String.isEmpty =
      (rootedPathOf true text true).dropWhile String.isEmpty ++ [""] := by
    rw [rootedPathOf_concat hrooted, List.dropWhile_append]
    simp [hall]
  unfold filePathOf
  rw [hmore]
  cases hparts : (rootedPathOf true text true).dropWhile String.isEmpty with
  | nil => exact absurd hparts hall
  | cons first rest =>
    simp only [List.cons_append]
    split <;> rfl

end Url

end Provisioning
