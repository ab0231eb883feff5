-- A slash after the path of a URL. The text with a slash more is read as the same URL
-- with an empty segment more.
import Provisioning.Proofs.Url.Reading

namespace Provisioning.Url

/-! ## Texts with a slash more -/

/-- A text with a slash where its path ends. -/
def withSlash (cs : List Char) : List Char :=
  cs.takeWhile (!endsPath ·) ++ '/' :: cs.dropWhile (!endsPath ·)

theorem withSlash_append {front : List Char} (h : ∀ c ∈ front, endsPath c = false)
    (cs : List Char) : withSlash (front ++ cs) = front ++ withSlash cs := by
  have hfront : ∀ c ∈ front, (!endsPath c) = true := by
    intro c hc
    rw [h c hc]
    rfl
  unfold withSlash
  rw [List.takeWhile_append_of_pos hfront, List.dropWhile_append_of_pos hfront, List.append_assoc]

theorem withSlash_cons {c : Char} (h : endsPath c = false) (cs : List Char) :
    withSlash (c :: cs) = c :: withSlash cs := by
  have hfront : ∀ d ∈ [c], endsPath d = false := by simpa using h
  exact withSlash_append hfront cs

theorem withSlash_of_end {c : Char} (h : endsPath c = true) (cs : List Char) :
    withSlash (c :: cs) = '/' :: c :: cs := by
  simp [withSlash, h]

/-- The path has the slash more, and what it ends at is still there. -/
theorem path_withSlash (cs : List Char) :
    (withSlash cs).takeWhile (!endsPath ·) = cs.takeWhile (!endsPath ·) ++ ['/'] ∧
    (withSlash cs).dropWhile (!endsPath ·) = cs.dropWhile (!endsPath ·) := by
  induction cs with
  | nil => exact ⟨rfl, rfl⟩
  | cons c cs ih =>
    cases hc : endsPath c with
    | true =>
      rw [withSlash_of_end hc]
      simp [hc, show endsPath '/' = false from rfl]
    | false =>
      rw [withSlash_cons hc]
      simp [hc, ih]

/-- What an authority ends at is still there, or the slash is. -/
theorem span_withSlash (special : Bool) (cs : List Char) :
    (withSlash cs).takeWhile (!endsAuthority special ·) = cs.takeWhile (!endsAuthority special ·) ∧
    (withSlash cs).dropWhile (!endsAuthority special ·) =
      withSlash (cs.dropWhile (!endsAuthority special ·)) := by
  induction cs with
  | nil => exact ⟨rfl, rfl⟩
  | cons c cs ih =>
    cases hc : endsPath c with
    | true =>
      have hauthority : endsAuthority special c = true := by
        unfold endsAuthority
        rw [hc, Bool.or_true]
      have hslash : endsAuthority special '/' = true := rfl
      rw [withSlash_of_end hc]
      simp [hauthority, hslash, withSlash_of_end hc]
    | false =>
      rw [withSlash_cons hc]
      cases hauthority : endsAuthority special c with
      | true => simp [hauthority, withSlash_cons hc]
      | false => simp [hauthority, ih]

/-! ## Reading them -/

theorem ofAuthorityText_withSlash {scheme : String} {special : Bool} {cs : List Char} {u : Url}
    (h : ofAuthorityText scheme special cs = .ok u) {names : List String}
    (hpath : u.path = .segments names) (hend : names.getLast? ≠ some "")
    (hat : cs.takeWhile (!endsAuthority special ·) ≠ ['@']) :
    ofAuthorityText scheme special (withSlash cs) =
      .ok { u with path := .segments (names ++ [""]) } := by
  obtain ⟨htake, hdrop⟩ := span_withSlash special cs
  rw [ofAuthorityText_eq, if_neg fun hboth => hat hboth.1] at h
  rw [ofAuthorityText_eq, htake, hdrop, if_neg fun hboth => hat hboth.1]
  obtain ⟨⟨authority, left⟩, hread, rfl⟩ := map_eq_ok_iff.mp h
  have hleft : ∀ c ∈ left, endsPath c = false := by
    intro c hc
    have hinside := List.mem_takeWhile_imp (mem_of_readAuthority hread hc)
    rw [Bool.not_eq_true', endsAuthority, Bool.or_eq_false_iff] at hinside
    exact hinside.2
  rw [← UrlPath.segments.inj hpath] at hend ⊢
  rw [hread]
  simp only [Except.map, ← withSlash_append hleft, path_withSlash, rootedPathOf_concat hend]
  rfl

/-- A slash more makes no other host, unless there is nothing but a slash before it. -/
theorem fileParts_withSlash {cs : List Char}
    (hend : (filePathOf ((fileParts cs).2.takeWhile (!endsPath ·))).getLast? ≠ some "") :
    fileParts (withSlash cs) = ((fileParts cs).1, withSlash (fileParts cs).2) := by
  rcases cs with _ | ⟨a, cs⟩
  · exact absurd rfl hend
  cases ha : isSlash true a with
  | false =>
    rw [fileParts_of_one ha] at hend ⊢
    cases hpath : endsPath a with
    | true =>
      rw [List.takeWhile_cons_of_neg (by simp [hpath])] at hend
      exact absurd rfl hend
    | false => rw [withSlash_cons hpath, fileParts_of_one ha]
  | true =>
    have hone : (filePathOf [a]).getLast? = some "" := by
      rw [filePathOf, rootedPathOf_cons, if_pos ha]
      rfl
    have hpath := endsPath_of_isSlash ha
    rcases cs with _ | ⟨b, after⟩
    · rw [fileParts, List.takeWhile_cons_of_pos (by simp [hpath])] at hend
      · exact absurd hone hend
      · intro _ _ _ h
        cases h
    cases hb : isSlash true b with
    | false =>
      rw [fileParts_of_two a hb] at hend ⊢
      cases hpathB : endsPath b with
      | true =>
        rw [List.takeWhile_cons_of_pos (by simp [hpath]),
          List.takeWhile_cons_of_neg (by simp [hpathB])] at hend
        exact absurd hone hend
      | false => rw [withSlash_cons hpath, withSlash_cons hpathB, fileParts_of_two a hb]
    | true =>
      obtain ⟨htake, hdrop⟩ := span_withSlash true after
      rw [withSlash_cons hpath, withSlash_cons (endsPath_of_isSlash hb), fileParts, fileParts,
        ha, hb, htake, hdrop]
      simp only [Bool.and_true, if_true]
      split <;> rfl

theorem ofFileText_withSlash {scheme : String} {cs : List Char} {u : Url}
    (h : ofFileText scheme cs = .ok u) {names : List String} (hpath : u.path = .segments names)
    (hend : names.getLast? ≠ some "") :
    ofFileText scheme (withSlash cs) = .ok { u with path := .segments (names ++ [""]) } := by
  rw [ofFileText_eq] at h ⊢
  obtain ⟨host, hread, rfl⟩ := map_eq_ok_iff.mp h
  rw [← UrlPath.segments.inj hpath] at hend ⊢
  rw [fileParts_withSlash hend, hread]
  simp only [Except.map, path_withSlash, filePathOf_concat hend]
  rfl

theorem dropWhile_slashes_withSlash {cs : List Char}
    (h : (cs.dropWhile (isSlash true)).takeWhile (!endsAuthority true ·) ≠ []) :
    (withSlash cs).dropWhile (isSlash true) = withSlash (cs.dropWhile (isSlash true)) := by
  induction cs with
  | nil => exact absurd rfl h
  | cons c cs ih =>
    cases hc : isSlash true c with
    | true =>
      rw [List.dropWhile_cons_of_pos hc] at h ⊢
      rw [withSlash_cons (endsPath_of_isSlash hc), List.dropWhile_cons_of_pos hc]
      exact ih h
    | false =>
      rw [List.dropWhile_cons_of_neg (by simp [hc])] at h ⊢
      cases hpath : endsPath c with
      | true =>
        rw [List.takeWhile_cons_of_neg (by simp [endsAuthority, hpath])] at h
        exact absurd rfl h
      | false => rw [withSlash_cons hpath, List.dropWhile_cons_of_neg (by simp [hc])]

/-- An at sign alone is an authority without a host, which nothing may follow. The URL with
a slash after it is written without the sign. -/
theorem ofAuthorityText_of_at {scheme : String} {cs : List Char} {u : Url}
    (h : ofAuthorityText scheme false cs = .ok u) {names : List String}
    (hpath : u.path = .segments names) (hat : cs.takeWhile (!endsAuthority false ·) = ['@']) :
    ofAuthorityText scheme false ['/'] = .ok { u with path := .segments (names ++ [""]) } := by
  rw [ofAuthorityText_eq, hat] at h
  split at h
  · cases h
  · rename_i hrest
    have hnone : cs.dropWhile (!endsAuthority false ·) = [] := by simpa using hrest
    rw [hnone] at h
    cases h
    cases hpath
    rfl

/-- What follows the scheme of a URL can be written with a slash more. -/
theorem exists_slash_of_ofScheme {scheme : String} {rest : List Char} {u : Url}
    (h : ofScheme scheme rest = .ok u) {names : List String} (hpath : u.path = .segments names)
    (hend : names.getLast? ≠ some "") :
    ∃ other, (other = withSlash rest ∨ other = ['/', '/', '/']) ∧
      ofScheme scheme other = .ok { u with path := .segments (names ++ [""]) } := by
  unfold ofScheme at h ⊢
  split at h
  · rename_i hfile
    simp only [if_pos hfile]
    exact ⟨_, .inl rfl, ofFileText_withSlash h hpath hend⟩
  rename_i hfile
  simp only [if_neg hfile]
  split at h
  · rename_i hspecial
    obtain ⟨hsome, hat⟩ := takeWhile_ne_of_special h
    simp only [if_pos hspecial]
    refine ⟨_, .inl rfl, ?_⟩
    rw [dropWhile_slashes_withSlash hsome]
    exact ofAuthorityText_withSlash h hpath hend hat
  rename_i hspecial
  simp only [if_neg hspecial]
  rcases ofPlainText_cases h hpath with ⟨rest, rfl, hread⟩ | ⟨rest, rfl, hhead⟩
  · by_cases hat : rest.takeWhile (!endsAuthority false ·) = ['@']
    · exact ⟨_, .inr rfl, ofAuthorityText_of_at hread hpath hat⟩
    · refine ⟨_, .inl rfl, ?_⟩
      rw [withSlash_cons rfl, withSlash_cons rfl]
      exact ofAuthorityText_withSlash hread hpath hend hat
  · refine ⟨_, .inl rfl, ?_⟩
    rw [ofPlainText_of_rooted scheme hhead] at h
    cases h
    rw [← UrlPath.segments.inj hpath] at hend ⊢
    have hmore : (withSlash rest).head? ≠ some '/' := by
      rcases rest with _ | ⟨c, rest⟩
      · exact absurd rfl hend
      cases hc : endsPath c with
      | true =>
        rw [List.takeWhile_cons_of_neg (by simp [hc])] at hend
        exact absurd rfl hend
      | false =>
        rw [withSlash_cons hc]
        exact hhead
    obtain ⟨htake, hdrop⟩ := path_withSlash rest
    rw [withSlash_cons rfl, ofPlainText_of_rooted scheme hmore, htake, hdrop, pathOf_concat hend]
    rfl

/-! ## The URL with a slash more -/

theorem counts_concat_slash {front : List Char} (h : ∀ c ∈ front, isIgnored c = false) :
    Counts (front ++ ['/']) := by
  constructor
  · intro c hc
    rcases List.mem_append.mp hc with hc | hc
    · exact h c hc
    · rw [List.mem_singleton.mp hc]
      rfl
  · intro c hc
    rw [List.getLast?_concat] at hc
    cases hc
    decide

theorem counts_withSlash {front rest : List Char} (h : Counts (front ++ rest)) :
    Counts (front ++ withSlash rest) := by
  have hrest := List.takeWhile_append_dropWhile (p := (!endsPath ·)) (l := rest)
  have hslash : Counts ((front ++ rest.takeWhile (!endsPath ·)) ++ ['/']) := by
    apply counts_concat_slash
    intro c hc
    apply h.whole
    rw [← hrest, ← List.append_assoc]
    exact List.mem_append_left _ hc
  unfold withSlash
  cases hend : rest.dropWhile (!endsPath ·) with
  | nil => simpa using hslash
  | cons c cs =>
    rw [hend] at hrest
    rw [← hrest] at h
    constructor
    · intro d hd
      simp only [List.mem_append, List.mem_cons] at hd
      rcases hd with hd | hd | rfl | hd
      · exact h.whole d (by simp [hd])
      · exact h.whole d (by simp [hd])
      · rfl
      · exact h.whole d (by simp [hd])
    · intro d hd
      apply h.last
      simpa [List.getLast?_append, List.getLast?_cons_cons] using hd

/-- A URL that ends in no slash can be written with one more. -/
theorem exists_text_with_slash {text : String} {u : Url} (h : ofText text = .ok u)
    {names : List String} (hpath : u.path = .segments names) (hend : names.getLast? ≠ some "") :
    ∃ other, trimmed other = other ∧
      ofText other = .ok { u with path := .segments (names ++ [""]) } := by
  obtain ⟨scheme, rest, hscheme, hread⟩ := ofText_eq_ok_iff.mp h
  obtain ⟨front, hcs, -, hfront⟩ := exists_front_of_splitScheme? hscheme
  obtain ⟨other, hother, hmore⟩ := exists_slash_of_ofScheme hread hpath hend
  have hcounts := counts_significant text.toList
  rw [hcs] at hcounts
  have hotherCounts : Counts (front ++ other) := by
    rcases hother with rfl | rfl
    · exact counts_withSlash hcounts
    · rw [show ['/', '/', '/'] = ['/', '/'] ++ ['/'] from rfl, ← List.append_assoc]
      apply counts_concat_slash
      intro c hc
      simp only [List.mem_append, List.mem_cons, List.not_mem_nil, or_false] at hc
      rcases hc with hc | rfl | rfl
      · exact hcounts.whole c (List.mem_append_left _ hc)
      · rfl
      · rfl
  obtain ⟨first, hfirst, halpha⟩ := exists_first_of_splitScheme? (hfront other)
  obtain ⟨htrimmed, hsignificant⟩ := trimmed_and_significant hotherCounts hfirst halpha
  refine ⟨_, htrimmed, ofText_eq_ok_iff.mpr ⟨scheme, other, ?_, hmore⟩⟩
  rw [String.toList_ofList, hsignificant]
  exact hfront other

end Provisioning.Url
