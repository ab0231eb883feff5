-- Where the list of records is: below the base, whether the base ends in a slash or not.
import Provisioning.Proofs.Http.RecordUrl
import Provisioning.Proofs.Url.TrailingSlash

namespace Provisioning

/-! ## Paths and the slash after them -/

/-- A path without the slash at its end, if it has one. -/
def withoutSlash (path : String) : String :=
  if path.toList.getLast? = some '/' then String.ofList path.toList.dropLast else path

/-- The other URL is this one with a slash after its path. -/
structure Url.IsSlashed (u other : Url) : Prop where
  scheme : other.scheme = u.scheme
  authority : other.authority = u.authority
  path : other.path.text = u.path.text ++ "/"
  query : other.query = u.query
  fragment : other.fragment = u.fragment

theorem withoutSlash_append (path : String) : withoutSlash (path ++ "/") = path := by
  unfold withoutSlash
  have hslash : (path ++ "/").toList = path.toList ++ ['/'] := String.toList_append
  rw [hslash, List.getLast?_concat, if_pos rfl, List.dropLast_concat, String.ofList_toList]

theorem withoutSlash_of_ne {path : String} (h : path.toList.getLast? ≠ some '/') :
    withoutSlash path = path := by
  rw [withoutSlash, if_neg h]

theorem length_le_withoutSlash (path : String) : path.length ≤ (withoutSlash path).length + 1 := by
  unfold withoutSlash
  split
  · rw [String.length_ofList, List.length_dropLast, String.length_toList]
    omega
  · omega

namespace Url

/-! ## The front of the list -/

theorem front_of_ne {path : List String} (h : path.getLast? ≠ some "") :
    front path = path.map String.toList := by
  have hlast : (path.map String.toList).getLast? ≠ some [] := by
    intro hlast
    rw [List.getLast?_map, Option.map_eq_some_iff] at hlast
    obtain ⟨last, hpath, hempty⟩ := hlast
    have hlast : last = "" := String.toList_inj.mp hempty
    exact h (hlast ▸ hpath)
  have hroot : path.map String.toList ≠ [[]] := by
    intro hroot
    rw [hroot] at hlast
    exact hlast rfl
  have hkeep : withoutLastSlash (path.map String.toList) = path.map String.toList := by
    unfold withoutLastSlash
    rw [if_neg fun hboth => hlast hboth.2]
  unfold front
  rw [hkeep]
  exact if_neg hroot

/-- The empty segment at the end is dropped, and so is the one that is left then. -/
theorem front_concat (path : List String) :
    front (path ++ [""]) = if path = [""] then [] else path.map String.toList := by
  have hroot : path.map String.toList = [[]] ↔ path = [""] := @map_toList_eq_iff path [""]
  cases path with
  | nil => rfl
  | cons name names =>
    have hdrop : withoutLastSlash ((name :: names ++ [""]).map String.toList) =
        (name :: names).map String.toList := by
      unfold withoutLastSlash
      rw [List.map_append, List.map_singleton, List.getLast?_concat, List.dropLast_concat]
      exact if_pos ⟨by simp, rfl⟩
    unfold front
    rw [hdrop]
    simp only [hroot]

theorem front_concat_of_ne {path : List String} (h : path.getLast? ≠ some "") :
    front (path ++ [""]) = front path := by
  have hpath : path ≠ [""] := by
    rintro rfl
    exact h rfl
  rw [front_concat, if_neg hpath, front_of_ne h]

/-- The front of the list is the path without its last slash, but two slashes both go. -/
theorem text_front {path : List String} (h : SlashFree path) :
    (UrlPath.segments ((front path).map String.ofList)).text =
      if (UrlPath.segments path).text = "//" then "" else withoutSlash (UrlPath.segments path).text := by
  have hwhole (names : List String) : (names.map String.toList).map String.ofList = names := by
    rw [List.map_map]
    exact List.map_id'' (fun _ => String.ofList_toList) names
  by_cases hend : path.getLast? = some ""
  · obtain ⟨names, rfl⟩ := List.getLast?_eq_some_iff.mp hend
    rw [front_concat, text_concat_empty, withoutSlash_append]
    have hnames := slashFree_concat_empty_iff.mp h
    have hroot : (UrlPath.segments names).text ++ "/" = "//" ↔ names = [""] := by
      constructor
      · intro htext
        apply eq_of_text_segments hnames (List.forall_mem_singleton.mpr List.not_mem_nil)
        exact (String.append_left_inj "/").mp htext
      · rintro rfl
        rfl
    simp only [hroot]
    split
    · rfl
    · rw [hwhole]
  · have hslash := mt (getLast?_text_iff h).mp hend
    have hroot : (UrlPath.segments path).text ≠ "//" := by
      intro hroot
      rw [hroot] at hslash
      exact hslash rfl
    rw [front_of_ne hend, hwhole, if_neg hroot, withoutSlash_of_ne hslash]

/-- Below a path and the path with a slash after it stand the same segments. -/
theorem addSegments_of_isSlashed {u other : Url} (h : u.IsSlashed other) {path slashed : List String}
    (hpath : u.path = .segments path) (hslashed : other.path = .segments slashed)
    (hfree : SlashFree path) (hfreeSlashed : SlashFree slashed) (hend : path.getLast? ≠ some "")
    (names : List String) :
    other.addSegments ("ui" :: "apps" :: names) = u.addSegments ("ui" :: "apps" :: names) := by
  have hmore : slashed = path ++ [""] := by
    apply eq_of_text_segments hfreeSlashed (slashFree_concat_empty_iff.mpr hfree)
    rw [text_concat_empty, ← hpath, ← hslashed]
    exact h.path
  have hset : other.segmentSet = u.segmentSet := by
    unfold segmentSet
    rw [h.scheme]
  rw [addSegments_eq hslashed, addSegments_eq hpath, hset, listSegments, listSegments, hmore,
    front_concat_of_ne hend, h.scheme, h.authority, h.query, h.fragment]

theorem pathGuard_length_le (u : Url) : u.pathGuard.length ≤ 2 := by
  unfold pathGuard
  split <;> decide

theorem textBefore_length_le {u other : Url} (hscheme : other.scheme = u.scheme)
    (hauthority : other.authority = u.authority) :
    u.textBefore.length ≤ other.textBefore.length + 2 := by
  have hguard := pathGuard_length_le u
  unfold textBefore
  rw [hscheme, hauthority]
  cases u.authority with
  | none =>
    simp only [String.length_append]
    omega
  | some authority => exact Nat.le_add_right _ 2

/-- A path that is longer by more than a guard makes a longer text. -/
theorem text_length_lt {u other : Url} (hscheme : other.scheme = u.scheme)
    (hauthority : other.authority = u.authority) (hquery : other.query = u.query)
    (hfragment : other.fragment = u.fragment)
    (hpath : u.path.text.length + 2 < other.path.text.length) :
    u.text.length < other.text.length := by
  have hbefore := textBefore_length_le hscheme hauthority
  have hafter : other.textAfter = u.textAfter := by
    unfold textAfter
    rw [hquery, hfragment]
  rw [text_eq, text_eq, hafter]
  simp only [String.length_append]
  omega

end Url

namespace HttpSource

open Url

/-! ## The list -/

theorem listUrl_parts {s : HttpSource} {path : List String} (h : s.base.path = .segments path) :
    s.listUrl.scheme = s.base.scheme ∧ s.listUrl.authority = s.base.authority ∧
      s.listUrl.query = s.base.query ∧ s.listUrl.fragment = s.base.fragment := by
  rw [listUrl, addSegments_eq h]
  exact ⟨rfl, rfl, rfl, rfl⟩

theorem listUrl_text_of_base {s : HttpSource} {path : List String} (h : s.base.path = .segments path)
    (hfree : SlashFree path) :
    s.listUrl.path.text =
      (if s.base.path.text = "//" then "" else withoutSlash s.base.path.text) ++ "/ui/apps" := by
  rw [listUrl_pathText h, listSegments, List.map_append, text_segments_append, text_front hfree, h]
  rfl

theorem slashFree_of_ofConfig {config : Config} {s : HttpSource} (h : ofConfig config = .ok s)
    {path : List String} (hpath : s.base.path = .segments path) : SlashFree path := by
  obtain ⟨base, hread, -, -, rfl⟩ := ofConfig_eq_ok_iff.mp h
  exact slashFree_of_ofText hread hpath

theorem text_length_lt_listUrl {s : HttpSource} {path : List String}
    (h : s.base.path = .segments path) (hfree : SlashFree path) :
    s.base.text.length < s.listUrl.text.length := by
  obtain ⟨hscheme, hauthority, hquery, hfragment⟩ := listUrl_parts h
  apply text_length_lt hscheme hauthority hquery hfragment
  have hlong : "/ui/apps".length = 8 := rfl
  have hslash := length_le_withoutSlash s.base.path.text
  rw [listUrl_text_of_base h hfree, String.length_append, hlong]
  split
  · rename_i htwo
    have htwoLong : "//".length = 2 := rfl
    rw [htwo, htwoLong]
    omega
  · omega

/-- A base that ends in no slash can be written with one. -/
theorem exists_slashed {config : Config} {s : HttpSource} (h : ofConfig config = .ok s)
    {path : List String} (hpath : s.base.path = .segments path) (hend : path.getLast? ≠ some "") :
    ∃ (baseUrl : String) (slashed : HttpSource), ofConfig { config with baseUrl } = .ok slashed ∧
      s.base.IsSlashed slashed.base := by
  obtain ⟨base, hread, -, hagent, rfl⟩ := ofConfig_eq_ok_iff.mp h
  obtain ⟨baseUrl, htrimmed, hmore⟩ := exists_text_with_slash hread hpath hend
  refine ⟨baseUrl, _, ofConfig_eq_ok_iff.mpr
    ⟨{ base with path := .segments (path ++ [""]) }, ?_, rfl, hagent, rfl⟩, rfl, rfl, ?_, rfl, rfl⟩
  · rw [htrimmed]
    exact hmore
  · rw [text_concat_empty, hpath]

/-! ## The law -/

/-- The list has the parts of the base around the path, and its path is that of the base,
without the slash at its end, and two segments more; of two slashes alone none is left. So
the list is never the base itself. For a base that ends in no slash there is one with a slash
after its path, and with each such base the list and all records stay where they are. -/
theorem list_is_below_the_base {config : Config} {s : HttpSource} (h : ofConfig config = .ok s) :
    (s.listUrl.scheme = s.base.scheme ∧ s.listUrl.authority = s.base.authority ∧
      s.listUrl.query = s.base.query ∧ s.listUrl.fragment = s.base.fragment) ∧
    s.listUrl.path.text =
      (if s.base.path.text = "//" then "" else withoutSlash s.base.path.text) ++ "/ui/apps" ∧
    s.listUrl.text ≠ s.base.text ∧
    (s.base.path.text.toList.getLast? ≠ some '/' →
      (∃ (baseUrl : String) (slashed : HttpSource),
        ofConfig { config with baseUrl } = .ok slashed ∧ s.base.IsSlashed slashed.base) ∧
      ∀ (other : Config) (slashed : HttpSource), ofConfig other = .ok slashed →
        s.base.IsSlashed slashed.base →
        slashed.listUrl = s.listUrl ∧ ∀ id : String, slashed.recordUrl id = s.recordUrl id) := by
  obtain ⟨path, hpath⟩ := exists_path_of_ofConfig h
  have hfree := slashFree_of_ofConfig h hpath
  refine ⟨listUrl_parts hpath, listUrl_text_of_base hpath hfree, ?_, ?_⟩
  · intro heq
    have hlonger := text_length_lt_listUrl hpath hfree
    rw [heq] at hlonger
    exact Nat.lt_irrefl _ hlonger
  · intro hslash
    have hend : path.getLast? ≠ some "" := by
      rw [hpath] at hslash
      exact mt (getLast?_text_iff hfree).mpr hslash
    refine ⟨exists_slashed h hpath hend, ?_⟩
    intro other slashed hother hslashed
    obtain ⟨longer, hlonger⟩ := exists_path_of_ofConfig hother
    have hsame := addSegments_of_isSlashed hslashed hpath hlonger hfree
      (slashFree_of_ofConfig hother hlonger) hend
    exact ⟨hsame [], fun id => hsame [id]⟩

/-- The source of a path at a host of one letter. -/
def atH (path : List Char) : HttpSource where
  base :=
    { scheme := "http"
      authority := some { host := .domain "h" }
      path := .segments (pathOf true path) }
  userAgent := Config.standard.userAgent
  timeout := Config.standard.timeout

theorem readAuthority_h : readAuthority "http" true ['h'] = .ok ({ host := .domain "h" }, []) := by
  have hread : Percent.decode? ['h'] = some ['h'] := Percent.decode?_of_decodeBytes rfl
  have hhost : Host.ofText ['h'] = .ok (.domain "h") := by
    unfold Host.ofText
    rw [show Host.bracketed? ['h'] = none from rfl]
    simp only [hread]
    rfl
  rw [readAuthority_eq]
  unfold readSite
  have hsite : splitHost false ['h'] = (['h'], []) := rfl
  simp only [show splitLastAt ['h'] = none from rfl, hsite, hhost]
  rfl

theorem ofConfig_at_h {baseUrl : String} {path : List Char}
    (h : splitScheme? (significant (trimmed baseUrl).toList) =
      some ("http", '/' :: '/' :: 'h' :: '/' :: path))
    (hpath : ∀ c ∈ path, endsPath c = false) :
    ofConfig { Config.standard with baseUrl } = .ok (atH path) := by
  have htake : ('h' :: '/' :: path).takeWhile (!endsAuthority true ·) = ['h'] := rfl
  have hdrop : ('h' :: '/' :: path).dropWhile (!endsAuthority true ·) = '/' :: path := rfl
  have hinside : ∀ c ∈ '/' :: path, (!endsPath c) = true := by
    intro c hc
    rcases List.mem_cons.mp hc with rfl | hc
    · rfl
    · rw [hpath c hc]
      rfl
  have hbase : ofText (trimmed baseUrl) = .ok (atH path).base := by
    refine ofText_eq_ok_iff.mpr ⟨_, _, h, ?_⟩
    change ofAuthorityText "http" true ('h' :: '/' :: path) = _
    rw [ofAuthorityText_eq, htake, hdrop, readAuthority_h, if_neg (by simp)]
    simp only [Except.map, List.nil_append, List.takeWhile_eq_self_iff.mpr hinside,
      List.dropWhile_eq_nil_iff.mpr hinside]
    rfl
  rw [ofConfig_of_base hbase rfl]
  simp only [standard, atH]

/-- With and without a slash after its path, a base has its list and its records in one place. -/
theorem list_of_a_path_with_and_without_a_slash :
    ofConfig { Config.standard with baseUrl := "http://h/a" } = .ok (atH ['a']) ∧
    ofConfig { Config.standard with baseUrl := "http://h/a/" } = .ok (atH ['a', '/']) ∧
    (atH ['a']).listUrl.path.text = "/a/ui/apps" ∧
    (atH ['a', '/']).listUrl = (atH ['a']).listUrl ∧
    (atH ['a', '/']).recordUrl "a1" = (atH ['a']).recordUrl "a1" := by
  have hplain : ofConfig { Config.standard with baseUrl := "http://h/a" } = .ok (atH ['a']) :=
    ofConfig_at_h (by decide +kernel) (by simp [endsPath])
  have hslashed : ofConfig { Config.standard with baseUrl := "http://h/a/" } =
      .ok (atH ['a', '/']) := ofConfig_at_h (by decide +kernel) (by simp [endsPath])
  obtain ⟨-, hpath, -, hsame⟩ := list_is_below_the_base hplain
  obtain ⟨hlist, hrecord⟩ := (hsame (by decide)).2 _ _ hslashed ⟨rfl, rfl, rfl, rfl, rfl⟩
  exact ⟨hplain, hslashed, hpath, hlist, hrecord "a1"⟩

/-- Of a path of two slashes, one is not enough to take off. -/
theorem list_below_two_slashes_has_one :
    ∃ s : HttpSource, ofConfig { Config.standard with baseUrl := "http://h//" } = .ok s ∧
      s.base.path.text = "//" ∧ s.listUrl.path.text = "/ui/apps" ∧
      s.listUrl.path.text ≠ withoutSlash s.base.path.text ++ "/ui/apps" :=
  ⟨atH ['/'], ofConfig_at_h (by decide +kernel) (by simp [endsPath]), rfl, rfl, by decide⟩

end HttpSource

end Provisioning
