-- Where the record of an application is. It is one segment below the list, in a way
-- that tells the id, for every id but one or two dots and those with tabs or line
-- breaks.
import Provisioning.Http.Source
import Provisioning.Proofs.Url.Segments

namespace Provisioning

namespace Url

/-! ## The segments of the list -/

/-- The path of a base, ready to take segments in. -/
def front (path : List String) : List (List Char) :=
  let path := withoutLastSlash (path.map String.toList)
  if path = [[]] then [] else path

def listSegments (path : List String) : List (List Char) :=
  front path ++ ["ui".toList, "apps".toList]

theorem listSegments_ne (path : List String) : listSegments path ≠ [[]] :=
  append_two_ne _ _ _

theorem addSegment_ui (u : Url) (p : List (List Char)) :
    addSegment u.segmentSet p "ui" = (if p = [[]] then [] else p) ++ ["ui".toList] := by
  unfold segmentSet
  split <;> rfl

theorem addSegment_apps (u : Url) {p : List (List Char)} (h : p ≠ [[]]) :
    addSegment u.segmentSet p "apps" = p ++ ["apps".toList] := by
  unfold segmentSet
  split <;> simp only [addSegment, if_neg h] <;> rfl

section
variable {u : Url} {path : List String} (h : u.path = .segments path)
include h

/-- What is below the list has the list's segments first. -/
theorem addSegments_eq (names : List String) :
    u.addSegments ("ui" :: "apps" :: names) =
      { u with path := .segments ((names.foldl (addSegment u.segmentSet) (listSegments path)).map
        String.ofList) } := by
  have hne : front path ++ ["ui".toList] ≠ [[]] := by
    intro heq
    have hlast := congrArg List.getLast? heq
    rw [List.getLast?_concat] at hlast
    cases hlast
  rw [addSegments, h]
  simp only [List.foldl_cons, addSegment_ui]
  rw [← front, addSegment_apps u hne, List.append_assoc]
  rfl

theorem textBefore_addSegments (name : String) :
    (u.addSegments ["ui", "apps", name]).textBefore = (u.addSegments ["ui", "apps"]).textBefore := by
  obtain ⟨x, rest, hadd⟩ :=
    exists_addSegment u.segmentSet (front path) "ui".toList "apps".toList name
  have hname : (u.addSegments ["ui", "apps", name]).path =
      .segments ((front path).map String.ofList ++
        String.ofList "ui".toList :: String.ofList x :: rest.map String.ofList) := by
    rw [addSegments_eq h, List.foldl_cons, List.foldl_nil, listSegments, hadd, List.map_append]
    rfl
  have hlist : (u.addSegments ["ui", "apps"]).path =
      .segments ((front path).map String.ofList ++
        String.ofList "ui".toList :: String.ofList "apps".toList :: []) := by
    rw [addSegments_eq h, List.foldl_nil, listSegments, List.map_append]
    rfl
  have hguard : (u.addSegments ["ui", "apps", name]).pathGuard =
      (u.addSegments ["ui", "apps"]).pathGuard := by
    apply pathGuard_congr _ hname hlist
    rw [addSegments_eq h, addSegments_eq h]
  unfold textBefore
  rw [hguard, addSegments_eq h, addSegments_eq h]

theorem textAfter_addSegments (name : String) :
    (u.addSegments ["ui", "apps", name]).textAfter = (u.addSegments ["ui", "apps"]).textAfter := by
  rw [addSegments_eq h, addSegments_eq h]
  rfl

end

end Url

namespace HttpSource

open Url

/-! ## The record of an id -/

section
variable {s : HttpSource} {path : List String} (h : s.base.path = .segments path)
include h

theorem listUrl_pathText :
    s.listUrl.path.text = UrlPath.text (.segments ((listSegments path).map String.ofList)) := by
  rw [listUrl, addSegments_eq h]
  rfl

theorem recordUrl_pathText (id : String) :
    (s.recordUrl id).path.text =
      UrlPath.text (.segments ((addSegment s.base.segmentSet (listSegments path) id).map
        String.ofList)) := by
  rw [recordUrl, addSegments_eq h]
  rfl

/-- An id that is more than dots makes one segment, of what counts of it. -/
theorem recordUrl_of_segment {id : String} (hsingle : kept id ≠ ['.'])
    (hdouble : kept id ≠ ['.', '.']) :
    (s.recordUrl id).path.text =
      s.listUrl.path.text ++ "/" ++
        String.ofList (Percent.encode s.base.segmentSet (kept id)) := by
  rw [recordUrl_pathText h, listUrl_pathText h,
    addSegment_of_segment (percent_mem_segmentSet _) (listSegments_ne path) hsingle hdouble,
    List.map_append, text_segments_append, String.append_assoc]
  simp [UrlPath.text]

theorem recordUrl_of_hidden_dot {id : String} (hid : id ≠ ".") (hkept : kept id = ['.']) :
    (s.recordUrl id).path.text = s.listUrl.path.text ++ "/" := by
  have hhidden : id.toList ≠ kept id := hkept ▸ toList_ne hid
  rw [recordUrl_pathText h, listUrl_pathText h,
    addSegment_of_hidden _ (listSegments_ne path) hhidden (.inl hkept), hkept, enter_last,
    if_neg (by decide), if_pos (by decide), List.map_append, text_segments_append]
  simp [UrlPath.text]

theorem recordUrl_of_hidden_dots {id : String} (hid : id ≠ "..") (hkept : kept id = ['.', '.']) :
    (s.recordUrl id).path.text ++ "apps" = s.listUrl.path.text := by
  have hhidden : id.toList ≠ kept id := hkept ▸ toList_ne hid
  rw [recordUrl_pathText h, listUrl_pathText h,
    addSegment_of_hidden _ (listSegments_ne path) hhidden (.inr hkept), hkept, enter_last,
    if_pos (by decide)]
  simp [UrlPath.text, listSegments, String.append_assoc]

theorem recordUrl_of_dots {id : String} (hid : id = "." ∨ id = "..") :
    s.recordUrl id = s.listUrl := by
  rw [recordUrl, listUrl, addSegments_eq h, addSegments_eq h, List.foldl_cons,
    addSegment_of_dots hid]

theorem recordUrl_congr {a b : String} (ha : a ≠ "." ∧ a ≠ "..") (hb : b ≠ "." ∧ b ≠ "..")
    (hkept : kept a = kept b) : s.recordUrl a = s.recordUrl b := by
  rw [recordUrl, recordUrl, addSegments_eq h, addSegments_eq h, List.foldl_cons, List.foldl_cons,
    addSegment_of_ne (listSegments_ne path) ha.1 ha.2, addSegment_of_ne (listSegments_ne path) hb.1 hb.2,
    hkept]

/-- A URL tells the path of a record. -/
theorem recordUrl_text (id : String) :
    (s.recordUrl id).text = s.listUrl.textBefore ++ (s.recordUrl id).path.text ++
      s.listUrl.textAfter := by
  rw [text_eq, recordUrl, textBefore_addSegments h, textAfter_addSegments h, listUrl]

/-- A record below the list, where its id can be read, has an id that a path carries. -/
theorem isCarried_of_segment {id segment : String}
    (hpath : (s.recordUrl id).path.text = s.listUrl.path.text ++ "/" ++ segment)
    (hread : Percent.decode? segment.toList = some id.toList) : IsCarried id := by
  have hslash : "/".length = 1 := rfl
  have hlength := congrArg String.length hpath
  simp only [String.length_append] at hlength
  by_cases hdots : id = "." ∨ id = ".."
  · rw [recordUrl_of_dots h hdots] at hlength
    omega
  obtain ⟨hsingle, hdouble⟩ := not_or.mp hdots
  have hkept : kept id = id.toList := by
    by_cases hdot : kept id = ['.']
    · rw [recordUrl_of_hidden_dot h hsingle hdot] at hpath
      have hempty : segment = "" := by
        simpa using hpath.symm
      have hnothing : Percent.decode? "".toList = some [] := Percent.decode?_of_decodeBytes rfl
      rw [hempty, hnothing] at hread
      rw [kept, ← Option.some.inj hread]
      rfl
    by_cases hdotdot : kept id = ['.', '.']
    · have habove := congrArg String.length (recordUrl_of_hidden_dots h hdouble hdotdot)
      rw [String.length_append] at habove
      omega
    · rw [recordUrl_of_segment h hdot hdotdot] at hpath
      have hsegment := (String.append_right_inj _).mp hpath
      rw [← hsegment, String.toList_ofList, Percent.decode?_encode (percent_mem_segmentSet _)]
        at hread
      exact Option.some.inj hread
  refine ⟨hsingle, hdouble, ?_⟩
  intro c hc
  rw [← hkept] at hc
  exact isIgnored_of_mem_kept hc

theorem exists_segment {id : String} (hid : IsCarried id) :
    ∃ segment : String, '/' ∉ segment.toList ∧
      (s.recordUrl id).path.text = s.listUrl.path.text ++ "/" ++ segment ∧
      Percent.decode? segment.toList = some id.toList := by
  have hkept := kept_eq_toList hid.whole
  refine ⟨String.ofList (Percent.encode s.base.segmentSet (kept id)), ?_, ?_, ?_⟩
  · rw [String.toList_ofList]
    exact Percent.slash_notMem_encode (slash_mem_segmentSet _) _
  · apply recordUrl_of_segment h <;> rw [hkept]
    · exact toList_ne hid.single
    · exact toList_ne hid.double
  · rw [String.toList_ofList, Percent.decode?_encode (percent_mem_segmentSet _), hkept]

theorem recordUrl_injective {a b : String} (ha : IsCarried a) (hb : IsCarried b)
    (heq : (s.recordUrl a).text = (s.recordUrl b).text) : a = b := by
  obtain ⟨segmentA, -, hpathA, hreadA⟩ := exists_segment h ha
  obtain ⟨segmentB, -, hpathB, hreadB⟩ := exists_segment h hb
  rw [recordUrl_text h, recordUrl_text h, hpathA, hpathB] at heq
  have hsegment : segmentA = segmentB := by simpa using heq
  rw [hsegment, hreadB] at hreadA
  exact (String.toList_inj.mp (Option.some.inj hreadA)).symm

theorem not_prefix_list {id : String} (hid : IsCarried id) :
    ¬ (s.recordUrl id).path.text.toList <+: s.listUrl.path.text.toList := by
  obtain ⟨segment, -, hpath, -⟩ := exists_segment h hid
  intro hprefix
  have hlength := hprefix.length_le
  have hslash : "/".toList.length = 1 := rfl
  rw [hpath] at hlength
  simp only [String.toList_append, List.length_append] at hlength
  omega

theorem recordUrl_ne_list {id : String} (hid : IsCarried id) :
    (s.recordUrl id).text ≠ s.listUrl.text := by
  intro heq
  rw [recordUrl_text h, text_eq s.listUrl] at heq
  have hpath : (s.recordUrl id).path.text = s.listUrl.path.text := by simpa using heq
  exact not_prefix_list h hid (hpath ▸ List.prefix_refl _)

end

/-- A source is made of a base that can carry segments, and of what the configuration says. -/
theorem ofConfig_eq_ok_iff {config : Config} {s : HttpSource} :
    ofConfig config = .ok s ↔
      ∃ base : Url, Url.ofText (trimmed config.baseUrl) = .ok base ∧ base.hasSegments = true ∧
        isHeaderText config.userAgent = true ∧
        s = { base, userAgent := config.userAgent, timeout := config.timeout } := by
  unfold ofConfig
  constructor
  · intro h
    split at h
    · cases h
    rename_i base hread
    split at h
    · cases h
    rename_i hsegments
    split at h
    · cases h
    rename_i hagent
    exact ⟨base, hread, by simpa using hsegments, by simpa using hagent, (Except.ok.inj h).symm⟩
  · rintro ⟨base, hread, hsegments, hagent, rfl⟩
    rw [hread]
    simp [hsegments, hagent]

theorem exists_path_of_ofConfig {config : Config} {s : HttpSource} (h : ofConfig config = .ok s) :
    ∃ path, s.base.path = .segments path := by
  obtain ⟨base, -, hsegments, -, rfl⟩ := ofConfig_eq_ok_iff.mp h
  cases hpath : base.path with
  | whole text => simp [Url.hasSegments, hpath] at hsegments
  | segments path => exact ⟨path, rfl⟩

theorem timeout_of_ofConfig {config : Config} {s : HttpSource} (h : ofConfig config = .ok s) :
    s.timeout = config.timeout := by
  obtain ⟨base, -, -, -, rfl⟩ := ofConfig_eq_ok_iff.mp h
  rfl

theorem userAgent_of_ofConfig {config : Config} {s : HttpSource} (h : ofConfig config = .ok s) :
    s.userAgent = config.userAgent := by
  obtain ⟨base, -, -, -, rfl⟩ := ofConfig_eq_ok_iff.mp h
  rfl

/-! ## The law -/

/-- The ids whose record is one segment below the list, in a way that tells the id, are
those that a path carries. Two of them have different URLs, and none has the URL of
the list or one above it. One or two dots have the URL of the list, and what is ignored
in any other id makes no difference. -/
theorem record_url_tells_the_carried_ids {config : Config} {s : HttpSource}
    (h : ofConfig config = .ok s) :
    (∀ id : String, IsCarried id ↔
      ∃ segment : String, '/' ∉ segment.toList ∧
        (s.recordUrl id).path.text = s.listUrl.path.text ++ "/" ++ segment ∧
        Percent.decode? segment.toList = some id.toList) ∧
    (∀ a b : String, IsCarried a → IsCarried b → a ≠ b →
      (s.recordUrl a).text ≠ (s.recordUrl b).text) ∧
    (∀ id : String, IsCarried id →
      (s.recordUrl id).text ≠ s.listUrl.text ∧
      ¬ (s.recordUrl id).path.text.toList <+: s.listUrl.path.text.toList) ∧
    (∀ id : String, id = "." ∨ id = ".." → s.recordUrl id = s.listUrl) ∧
    ∀ a b : String, a ≠ "." ∧ a ≠ ".." → b ≠ "." ∧ b ≠ ".." → kept a = kept b →
      s.recordUrl a = s.recordUrl b := by
  obtain ⟨path, hpath⟩ := exists_path_of_ofConfig h
  refine ⟨?_, ?_, ?_, ?_, ?_⟩
  · intro id
    constructor
    · exact exists_segment hpath
    · rintro ⟨segment, -, hsegment, hread⟩
      exact isCarried_of_segment hpath hsegment hread
  · intro a b ha hb hne heq
    exact hne (recordUrl_injective hpath ha hb heq)
  · intro id hid
    exact ⟨recordUrl_ne_list hpath hid, not_prefix_list hpath hid⟩
  · intro id hid
    exact recordUrl_of_dots hpath hid
  · intro a b ha hb hkept
    exact recordUrl_congr hpath ha hb hkept

/-! ### Sources on this computer -/

/-- The source of the standard configuration. -/
def standard : HttpSource where
  base :=
    { scheme := "http"
      authority := some { host := .domain "localhost", port := some 8080 }
      path := .segments [""] }
  userAgent := Config.standard.userAgent
  timeout := Config.standard.timeout

/-- The same place, where no request can be made for it. -/
def overFtp : HttpSource := { standard with base := { standard.base with scheme := "ftp" } }

/-- The same place with a fragment, which no request tells. -/
def withFragment : HttpSource :=
  { standard with base := { standard.base with fragment := some "f" } }

theorem readAuthority_localhost {scheme : String} (h : defaultPort? scheme ≠ some 8080) :
    Url.readAuthority scheme true "localhost:8080".toList =
      .ok ({ host := .domain "localhost", port := some 8080 }, []) := by
  have hread : Percent.decode? "localhost".toList = some "localhost".toList :=
    Percent.decode?_of_decodeBytes rfl
  have hhost : Host.ofText "localhost".toList = .ok (.domain "localhost") := by
    unfold Host.ofText
    rw [show Host.bracketed? "localhost".toList = none from rfl]
    simp only [hread]
    rfl
  have hlast : splitLastAt "localhost:8080".toList = none := rfl
  have hsite : splitHost false "localhost:8080".toList = ("localhost".toList, ":8080".toList) :=
    rfl
  have hspan : "8080".toList.span Char.isDigit = ("8080".toList, []) := rfl
  have hport : Url.readPort scheme ":8080".toList = .ok (some 8080, []) := by
    change Url.readPort scheme (':' :: "8080".toList) = _
    have hown : (defaultPort? scheme == some 8080) = false := by simpa using h
    have hvalue : digitsValue ("8080".toList.map fun c => c.toNat - '0'.toNat) = 8080 := rfl
    unfold Url.readPort
    simp only [hspan, hvalue, hown]
    rfl
  unfold Url.readAuthority
  simp only [hlast, hsite, hhost]
  simp only [bind, Except.bind, hport]
  rfl

theorem ofAuthorityText_localhost {scheme : String} (h : defaultPort? scheme ≠ some 8080)
    {tail : List Char} (htail : tail = [] ∨ tail = ['#', 'f']) :
    Url.ofAuthorityText scheme true ("localhost:8080".toList ++ tail) =
      .ok (withTail true { standard.base with scheme } tail) := by
  have hspan : ("localhost:8080".toList ++ tail).span (!endsAuthority true ·) =
      ("localhost:8080".toList, tail) := by
    rcases htail with rfl | rfl <;> rfl
  have hpath : ([] ++ tail).span (!endsPath ·) = ([], tail) := by
    rcases htail with rfl | rfl <;> rfl
  unfold Url.ofAuthorityText
  simp only [hspan, readAuthority_localhost h]
  simp only [bind, Except.bind, hpath]
  rfl

/-- With another base, the rest is as in the standard configuration. -/
theorem ofConfig_of_base {baseUrl : String} {base : Url}
    (hbase : Url.ofText (trimmed baseUrl) = .ok base) (hsegments : base.hasSegments = true) :
    ofConfig { Config.standard with baseUrl } = .ok { standard with base } := by
  have htimeout : ({ Config.standard with baseUrl } : Config).timeout = Config.standard.timeout := by
    simp only [Config.timeout]
  have hagent : isHeaderText Config.standard.userAgent = true := by decide
  refine ofConfig_eq_ok_iff.mpr ⟨base, hbase, hsegments, hagent, ?_⟩
  simp only [standard, htimeout]

theorem ofText_standard : Url.ofText (trimmed Config.standard.baseUrl) = .ok standard.base := by
  change Url.ofAuthorityText "http" true ("localhost:8080".toList ++ []) = _
  rw [ofAuthorityText_localhost (by decide) (.inl rfl)]
  rfl

theorem ofConfig_standard : ofConfig Config.standard = .ok standard := by
  unfold ofConfig
  rw [ofText_standard]
  rfl

/-- A user agent that no request can carry makes no source. -/
theorem ofConfig_of_brokenAgent {userAgent : String} (h : isHeaderText userAgent = false) :
    ofConfig { Config.standard with userAgent } =
      .error (.invalid "http client" "builder error") := by
  unfold ofConfig
  dsimp only
  rw [ofText_standard]
  simp [h, standard, Url.hasSegments]

theorem ofConfig_overFtp :
    ofConfig { Config.standard with baseUrl := "ftp://localhost:8080" } = .ok overFtp := by
  apply ofConfig_of_base
  · change Url.ofAuthorityText "ftp" true ("localhost:8080".toList ++ []) = _
    rw [ofAuthorityText_localhost (by decide) (.inl rfl)]
    rfl
  · rfl

theorem ofConfig_withFragment :
    ofConfig { Config.standard with baseUrl := "http://localhost:8080#f" } = .ok withFragment := by
  apply ofConfig_of_base
  · change Url.ofAuthorityText "http" true ("localhost:8080".toList ++ ['#', 'f']) = _
    rw [ofAuthorityText_localhost (by decide) (.inr rfl)]
    rfl
  · rfl

/-- Dots in other company, slashes and percent signs are told apart. -/
theorem record_urls_of_two_like_ids :
    (∃ segment : String, '/' ∉ segment.toList ∧
      (standard.recordUrl "../a%2Fb").path.text = standard.listUrl.path.text ++ "/" ++ segment ∧
      Percent.decode? segment.toList = some "../a%2Fb".toList) ∧
    (standard.recordUrl "../a%2Fb").text ≠ (standard.recordUrl "../a/b").text := by
  obtain ⟨htold, hdistinct, -⟩ := record_url_tells_the_carried_ids ofConfig_standard
  have hencoded : IsCarried "../a%2Fb" := ⟨by decide, by decide, by simp [isIgnored]⟩
  have hplain : IsCarried "../a/b" := ⟨by decide, by decide, by simp [isIgnored]⟩
  exact ⟨(htold _).mp hencoded, hdistinct _ _ hencoded hplain (by decide)⟩

/-- A dot is an id like any other, and its record has the URL of the list. -/
theorem record_of_a_dot_is_the_list :
    ¬ ∀ (config : Config) (s : HttpSource), ofConfig config = .ok s → ∀ id : String,
      ∃ segment : String, '/' ∉ segment.toList ∧
        (s.recordUrl id).path.text = s.listUrl.path.text ++ "/" ++ segment ∧
        Percent.decode? segment.toList = some id.toList := by
  intro hall
  obtain ⟨segment, -, hpath, hread⟩ := hall _ _ ofConfig_standard "."
  exact (isCarried_of_segment rfl hpath hread).single rfl

end HttpSource

end Provisioning
