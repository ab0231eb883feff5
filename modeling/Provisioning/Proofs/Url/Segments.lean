-- Adding a name to the path of a URL: which names become a segment of their own,
-- and what becomes of the others.
import Provisioning.Proofs.Url.Percent
import Provisioning.Url.Reading

namespace Provisioning

/-! ## Dots -/

theorem toNat_toLower (c : Char) :
    c.toLower.toNat = if 65 ≤ c.toNat ∧ c.toNat ≤ 90 then c.toNat + 32 else c.toNat := by
  have hA : ('A' : Char).val.toNat = 65 := rfl
  have hZ : ('Z' : Char).val.toNat = 90 := rfl
  have hc : c.val.toNat = c.toNat := rfl
  unfold Char.toLower
  simp only [ge_iff_le, UInt32.le_iff_toNat_le, hA, hZ, hc]
  split
  · change (c.val + 32).toNat = _
    rw [UInt32.toNat_add, hc]
    simp
    omega
  · rfl

/-- A character is the lower case of itself and of one capital at most. -/
theorem eq_of_toLower {c d : Char} (h : c.toLower = d) : c = d ∨ c.toNat + 32 = d.toNat := by
  have hlower := toNat_toLower c
  rw [h] at hlower
  split at hlower
  · exact .inr hlower.symm
  · exact .inl (Char.toNat_inj.mp hlower.symm)

theorem eq_of_toLower_of_lt {c d : Char} (h : c.toLower = d) (hd : d.toNat < 65 + 32) : c = d := by
  have hlower := toNat_toLower c
  rcases eq_of_toLower h with heq | hcapital
  · exact heq
  · rw [h] at hlower
    split at hlower <;> omega

theorem hexDigit?_of_toLower {c : Char} (h : c.toLower = 'e') : hexDigit? c = some 14 := by
  rcases eq_of_toLower h with rfl | hcapital
  · rfl
  · have : c = 'E' := Char.toNat_inj.mp (show c.toNat = 69 from Nat.add_right_cancel hcapital)
    rw [this]
    rfl

/-- A dot may be written as its byte, in either case. -/
theorem decodeBytes_dot {percent two e : Char} (hpercent : percent.toLower = '%')
    (htwo : two.toLower = '2') (he : e.toLower = 'e') (rest : List Char) :
    Percent.decodeBytes (percent :: two :: e :: rest) = 46 :: Percent.decodeBytes rest := by
  have h2 : hexDigit? '2' = some 2 := rfl
  rw [eq_of_toLower_of_lt hpercent (by decide), eq_of_toLower_of_lt htwo (by decide),
    Percent.decodeBytes, h2, hexDigit?_of_toLower he]
  rfl

theorem decodeBytes_plainDot {dot : Char} (h : dot.toLower = '.') (rest : List Char) :
    Percent.decodeBytes (dot :: rest) = 46 :: Percent.decodeBytes rest := by
  rw [eq_of_toLower_of_lt h (by decide), Percent.decodeBytes_cons (by decide)]
  rfl

theorem decode?_of_isSingleDot {segment : List Char} (h : isSingleDot segment = true) :
    Percent.decode? segment = some ['.'] := by
  apply Percent.decode?_of_decodeBytes
  simp only [isSingleDot, Bool.or_eq_true, beq_iff_eq, List.map_eq_cons_iff,
    List.map_eq_nil_iff] at h
  rcases h with ⟨dot, -, rfl, hdot, rfl⟩ | ⟨percent, -, rfl, hp, two, -, rfl, h2, e, -, rfl, he, rfl⟩
  · rw [decodeBytes_plainDot hdot]
    rfl
  · rw [decodeBytes_dot hp h2 he]
    rfl

theorem decode?_of_isDoubleDot {segment : List Char} (h : isDoubleDot segment = true) :
    Percent.decode? segment = some ['.', '.'] := by
  apply Percent.decode?_of_decodeBytes
  simp only [isDoubleDot, Bool.or_eq_true, beq_iff_eq, List.map_eq_cons_iff,
    List.map_eq_nil_iff] at h
  rcases h with ((⟨a, -, rfl, ha, b, -, rfl, hb, rfl⟩ |
    ⟨a, -, rfl, ha, b, -, rfl, hb, c, -, rfl, hc, d, -, rfl, hd, rfl⟩) |
    ⟨a, -, rfl, ha, b, -, rfl, hb, c, -, rfl, hc, d, -, rfl, hd, rfl⟩) |
    ⟨a, -, rfl, ha, b, -, rfl, hb, c, -, rfl, hc, d, -, rfl, hd, e, -, rfl, he, f, -, rfl, hf, rfl⟩
  · rw [decodeBytes_plainDot ha, decodeBytes_plainDot hb]
    rfl
  · rw [decodeBytes_plainDot ha, decodeBytes_dot hb hc hd]
    rfl
  · rw [decodeBytes_dot ha hb hc, decodeBytes_plainDot hd]
    rfl
  · rw [decodeBytes_dot ha hb hc, decodeBytes_dot hd he hf]
    rfl

/-! ## One name -/

namespace Url

theorem percent_mem_segmentSet (u : Url) : '%' ∈ u.segmentSet := by
  unfold segmentSet
  split <;> decide

theorem slash_mem_segmentSet (u : Url) : '/' ∈ u.segmentSet := by
  unfold segmentSet
  split <;> decide

/-- What counts of a name. -/
def kept (name : String) : List Char := name.toList.filter (!isIgnored ·)

/-- Does a path that this name is added to tell the name? -/
structure IsCarried (name : String) : Prop where
  single : name ≠ "."
  double : name ≠ ".."
  whole : ∀ c ∈ name.toList, isIgnored c = false

theorem isIgnored_of_mem_kept {name : String} {c : Char} (h : c ∈ kept name) :
    isIgnored c = false := by
  have := (List.mem_filter.mp h).2
  simpa using this

theorem kept_eq_toList {name : String} (h : ∀ c ∈ name.toList, isIgnored c = false) :
    kept name = name.toList := by
  apply List.filter_eq_self.mpr
  intro c hc
  rw [h c hc]
  rfl

theorem toList_ne {name dots : String} (h : name ≠ dots) : name.toList ≠ dots.toList := by
  intro heq
  exact h (String.toList_inj.mp heq)

section
variable {set : Percent.EncodedSet} {path : List (List Char)} {name : String}

theorem addSegment_of_dots (h : name = "." ∨ name = "..") : addSegment set path name = path := by
  rw [addSegment, if_pos h]

theorem addSegment_of_ne (hpath : path ≠ [[]]) (hsingle : name ≠ ".") (hdouble : name ≠ "..") :
    addSegment set path name = enter false path (Percent.encode set (kept name)) true := by
  rw [addSegment, if_neg (by simp [hsingle, hdouble])]
  simp only [if_neg hpath]
  rfl

/-- A name that is more than dots becomes one segment. -/
theorem addSegment_of_segment (hpercent : '%' ∈ set) (hpath : path ≠ [[]])
    (hsingle : kept name ≠ ['.']) (hdouble : kept name ≠ ['.', '.']) :
    addSegment set path name = path ++ [Percent.encode set (kept name)] := by
  have hread := Percent.decode?_encode hpercent (kept name)
  have hnotSingle : isSingleDot (Percent.encode set (kept name)) ≠ true := by
    intro hdot
    rw [decode?_of_isSingleDot hdot] at hread
    exact hsingle (Option.some.inj hread).symm
  have hnotDouble : isDoubleDot (Percent.encode set (kept name)) ≠ true := by
    intro hdot
    rw [decode?_of_isDoubleDot hdot] at hread
    exact hdouble (Option.some.inj hread).symm
  have h1 : name ≠ "." := by
    rintro rfl
    exact hsingle rfl
  have h2 : name ≠ ".." := by
    rintro rfl
    exact hdouble rfl
  rw [addSegment_of_ne hpath h1 h2, enter, if_neg hnotDouble, if_neg hnotSingle]

/-- What a name of ignored characters around one or two dots leaves, where `enter` takes
the dots for a way through the path. -/
theorem addSegment_of_hidden (u : Url) (hpath : path ≠ [[]]) (hhidden : name.toList ≠ kept name)
    (hdots : kept name = ['.'] ∨ kept name = ['.', '.']) :
    addSegment u.segmentSet path name = enter false path (kept name) true := by
  have hsingle : name ≠ "." := by
    rintro rfl
    exact hhidden rfl
  have hdouble : name ≠ ".." := by
    rintro rfl
    exact hhidden rfl
  have hplain : Percent.encode u.segmentSet (kept name) = kept name := by
    unfold segmentSet
    rcases hdots with h | h <;> rw [h] <;> split <;> rfl
  rw [addSegment_of_ne hpath hsingle hdouble, hplain]

theorem enter_last (path : List (List Char)) (segment : List Char) :
    enter false path segment true =
      if isDoubleDot segment then path.dropLast ++ [[]]
      else if isSingleDot segment then path ++ [[]]
      else path ++ [segment] := rfl

theorem append_two_ne (front : List (List Char)) (a b : List Char) : front ++ [a, b] ≠ [[]] := by
  intro h
  have := congrArg List.length h
  simp at this

/-- A name changes nothing before the last segment. -/
theorem exists_addSegment (set : Percent.EncodedSet) (front : List (List Char))
    (a b : List Char) (name : String) :
    ∃ x rest, addSegment set (front ++ [a, b]) name = front ++ a :: x :: rest := by
  by_cases hdots : name = "." ∨ name = ".."
  · exact ⟨b, [], addSegment_of_dots hdots⟩
  obtain ⟨hsingle, hdouble⟩ := not_or.mp hdots
  rw [addSegment_of_ne (append_two_ne front a b) hsingle hdouble, enter_last]
  split
  · refine ⟨[], [], ?_⟩
    rw [List.dropLast_append_of_ne_nil (by simp)]
    simp
  split
  · exact ⟨b, [[]], by simp⟩
  · exact ⟨b, [_], by rw [List.append_assoc]; rfl⟩

end

/-! ## Texts -/

def textBefore (u : Url) : String :=
  u.scheme ++ ":" ++
    match u.authority with
    | some a => "//" ++ a.text
    | none => u.pathGuard

def textAfter (u : Url) : String :=
  (match u.query with
    | some query => "?" ++ query
    | none => "") ++
  match u.fragment with
  | some fragment => "#" ++ fragment
  | none => ""

theorem text_eq (u : Url) : u.text = u.textBefore ++ u.path.text ++ u.textAfter := by
  have hassoc (a b c d e : String) : a ++ b ++ (c ++ d) ++ e = a ++ b ++ c ++ (d ++ e) := by
    simp only [String.append_assoc]
  exact hassoc ..

/-- The guard looks at the first of several segments only. -/
theorem pathGuard_of_two {u : Url} {a x : String} {rest : List String}
    (h : u.path = .segments (a :: x :: rest)) :
    u.pathGuard = if u.authority = none ∧ a = "" then "/." else "" := by
  unfold pathGuard
  rw [h]
  cases u.authority with
  | some _ => rfl
  | none =>
    by_cases ha : a = ""
    · subst ha
      rfl
    · simp [ha]

theorem pathGuard_congr {u v : Url} (h : u.authority = v.authority) {front rest rest' : List String}
    {a x y : String} (hu : u.path = .segments (front ++ a :: x :: rest))
    (hv : v.path = .segments (front ++ a :: y :: rest')) : u.pathGuard = v.pathGuard := by
  match front with
  | [] => rw [pathGuard_of_two hu, pathGuard_of_two hv, h]
  | [_] => rw [pathGuard_of_two hu, pathGuard_of_two hv, h]
  | _ :: _ :: _ => rw [pathGuard_of_two hu, pathGuard_of_two hv, h]

theorem text_segments_append (a b : List String) :
    UrlPath.text (.segments (a ++ b)) = UrlPath.text (.segments a) ++ UrlPath.text (.segments b) := by
  simp only [UrlPath.text, List.map_append, String.join_append]

end Url

end Provisioning
