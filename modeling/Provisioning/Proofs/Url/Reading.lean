-- How a URL is read: each reader by the parts that it takes its text apart into, and what
-- counts of a text at all.
import Mathlib.Data.List.TakeDrop
import Mathlib.Data.List.TakeWhile
import Provisioning.Proofs.Outcome
import Provisioning.Proofs.Url.Paths

namespace Provisioning.Url

/-! ## Authorities -/

theorem mem_of_splitLastAt {cs before after : List Char} (h : splitLastAt cs = some (before, after))
    {c : Char} (hc : c ∈ after) : c ∈ cs := by
  unfold splitLastAt at h
  rw [List.span_eq_takeWhile_dropWhile] at h
  split at h
  · cases h
  · rename_i taken _ _ hspan
    cases h
    rw [Prod.mk.injEq] at hspan
    rw [List.mem_reverse, ← hspan.1] at hc
    exact List.mem_reverse.mp ((List.takeWhile_prefix _).mem hc)

theorem splitHost_append (inBrackets : Bool) (cs : List Char) :
    (splitHost inBrackets cs).1 ++ (splitHost inBrackets cs).2 = cs := by
  induction cs generalizing inBrackets with
  | nil => rfl
  | cons c cs ih =>
    unfold splitHost
    split
    · rfl
    · exact congrArg (c :: ·) (ih _)

theorem mem_of_readPort {scheme : String} {cs left : List Char} {port : Option Nat}
    (h : readPort scheme cs = .ok (port, left)) {c : Char} (hc : c ∈ left) : c ∈ cs := by
  unfold readPort at h
  split at h
  · rename_i digits
    rw [List.span_eq_takeWhile_dropWhile] at h
    dsimp only at h
    apply List.mem_cons_of_mem
    split at h
    · cases h
    split at h
    · cases h
      exact (List.dropWhile_suffix _).mem hc
    · cases h
      exact (List.dropWhile_suffix _).mem hc
  · cases h
    exact hc

/-- The authority of credentials and a site. -/
def readSite (scheme : String) (special : Bool) (credentials site : List Char) :
    Except UrlError (Authority × List Char) := do
  let (username, password) := readCredentials credentials
  let (hostText, after) := splitHost false site
  if special && hostText.isEmpty then throw .emptyHost
  let host ← if special then Host.ofText hostText else Host.ofPlainText hostText
  let hasCredentials := !username.isEmpty || password.isSome
  if host.isEmpty && (!after.isEmpty || hasCredentials) then throw .emptyHost
  let (port, rest) ← readPort scheme after
  return ({ username, password, host, port }, rest)

theorem readAuthority_eq (scheme : String) (special : Bool) (cs : List Char) :
    readAuthority scheme special cs = match splitLastAt cs with
      | some (before, after) => readSite scheme special before after
      | none => readSite scheme special [] cs := by
  unfold readAuthority readSite
  cases splitLastAt cs <;> rfl

theorem mem_of_readSite {scheme : String} {special : Bool} {credentials site left : List Char}
    {authority : Authority} (h : readSite scheme special credentials site = .ok (authority, left))
    {c : Char} (hc : c ∈ left) : c ∈ site := by
  have hport {port : Option Nat}
      (hread : readPort scheme (splitHost false site).2 = .ok (port, left)) : c ∈ site := by
    rw [← splitHost_append false site]
    exact List.mem_append_right _ (mem_of_readPort hread hc)
  unfold readSite at h
  dsimp only at h
  split at h
  · cases h
  split at h
  all_goals
    obtain ⟨host, -, hafter⟩ := bind_eq_ok_iff.mp h
    split at hafter
    · cases hafter
    obtain ⟨⟨port, rest⟩, hread, hread'⟩ := bind_eq_ok_iff.mp hafter
    cases hread'
    exact hport hread

/-- What is left of an authority for the path was in it. -/
theorem mem_of_readAuthority {scheme : String} {special : Bool} {cs left : List Char}
    {authority : Authority} (h : readAuthority scheme special cs = .ok (authority, left))
    {c : Char} (hc : c ∈ left) : c ∈ cs := by
  rw [readAuthority_eq] at h
  split at h
  · rename_i hlast
    exact mem_of_splitLastAt hlast (mem_of_readSite h hc)
  · exact mem_of_readSite h hc

/-- A URL whose authority is read has the rest for its path and what follows. -/
theorem ofAuthorityText_eq (scheme : String) (special : Bool) (cs : List Char) :
    ofAuthorityText scheme special cs =
      if cs.takeWhile (!endsAuthority special ·) = ['@'] ∧
          !(cs.dropWhile (!endsAuthority special ·)).isEmpty then .error .emptyHost
      else (readAuthority scheme special (cs.takeWhile (!endsAuthority special ·))).map fun read =>
        let after := read.2 ++ cs.dropWhile (!endsAuthority special ·)
        withTail special
          { scheme
            authority := some read.1
            path := .segments (rootedPathOf special (after.takeWhile (!endsPath ·))) }
          (after.dropWhile (!endsPath ·)) := by
  unfold ofAuthorityText
  simp only [List.span_eq_takeWhile_dropWhile]
  split
  · rfl
  · cases readAuthority scheme special (cs.takeWhile (!endsAuthority special ·)) <;> rfl

theorem slashFree_of_ofAuthorityText {scheme : String} {special : Bool} {cs : List Char} {u : Url}
    (h : ofAuthorityText scheme special cs = .ok u) {names : List String}
    (hpath : u.path = .segments names) : SlashFree names := by
  rw [ofAuthorityText_eq] at h
  split at h
  · cases h
  obtain ⟨read, -, rfl⟩ := map_eq_ok_iff.mp h
  rw [← UrlPath.segments.inj hpath]
  exact slashFree_rootedPathOf _ _ _

/-! ## Files -/

/-- The text of the host of a file, and what follows it. -/
def fileParts : List Char → List Char × List Char
  | a :: b :: after =>
    if isSlash true a && isSlash true b then
      if isDriveLetter (after.takeWhile (!endsAuthority true ·)) then ([], after)
      else (after.takeWhile (!endsAuthority true ·), after.dropWhile (!endsAuthority true ·))
    else ([], a :: b :: after)
  | cs => ([], cs)

theorem ofFileText_eq (scheme : String) (cs : List Char) :
    ofFileText scheme cs = (readFileHost (fileParts cs).1).map fun host =>
      withTail true
        { scheme
          authority := some { host }
          path := .segments (filePathOf ((fileParts cs).2.takeWhile (!endsPath ·))) }
        ((fileParts cs).2.dropWhile (!endsPath ·)) := by
  have hmap {x : Except UrlError Host} {f : Host → Url} : (x >>= fun host => .ok (f host)) = x.map f := by
    cases x <;> rfl
  unfold ofFileText fileParts
  simp only [List.span_eq_takeWhile_dropWhile]
  rcases cs with _ | ⟨a, _ | ⟨b, after⟩⟩
  · exact hmap
  · exact hmap
  · dsimp only
    split
    · split <;> exact hmap
    · exact hmap

theorem endsPath_of_isSlash {special : Bool} {c : Char} (h : isSlash special c = true) :
    endsPath c = false := by
  simp only [isSlash, Bool.or_eq_true, Bool.and_eq_true, beq_iff_eq] at h
  rcases h with rfl | ⟨-, rfl⟩ <;> rfl

theorem fileParts_of_one {a : Char} (h : isSlash true a = false) (cs : List Char) :
    fileParts (a :: cs) = ([], a :: cs) := by
  cases cs with
  | nil => rfl
  | cons b after => simp [fileParts, h]

theorem fileParts_of_two (a : Char) {b : Char} (h : isSlash true b = false) (after : List Char) :
    fileParts (a :: b :: after) = ([], a :: b :: after) := by
  simp [fileParts, h]

theorem slashFree_of_ofFileText {scheme : String} {cs : List Char} {u : Url}
    (h : ofFileText scheme cs = .ok u) {names : List String} (hpath : u.path = .segments names) :
    SlashFree names := by
  rw [ofFileText_eq] at h
  obtain ⟨host, -, rfl⟩ := map_eq_ok_iff.mp h
  rw [← UrlPath.segments.inj hpath]
  exact slashFree_filePathOf _

/-! ## Schemes without rules of their own -/

theorem ofPlainText_of_rooted (scheme : String) {rest : List Char} (h : rest.head? ≠ some '/') :
    ofPlainText scheme ('/' :: rest) =
      .ok (withTail false { scheme, path := .segments (pathOf false (rest.takeWhile (!endsPath ·))) }
        (rest.dropWhile (!endsPath ·))) := by
  have hslash : endsPath '/' = false := rfl
  unfold ofPlainText
  split
  · rename_i rest' heq
    rw [(List.cons.inj heq).2] at h
    exact absurd rfl h
  · simp only [List.span_eq_takeWhile_dropWhile]
    simp [hslash]

/-- A URL with segments has two slashes and an authority, or one slash. -/
theorem ofPlainText_cases {scheme : String} {cs : List Char} {u : Url}
    (h : ofPlainText scheme cs = .ok u) {names : List String} (hpath : u.path = .segments names) :
    (∃ rest, cs = '/' :: '/' :: rest ∧ ofAuthorityText scheme false rest = .ok u) ∨
    ∃ rest, cs = '/' :: rest ∧ rest.head? ≠ some '/' := by
  unfold ofPlainText at h
  split at h
  · rename_i rest
    exact .inl ⟨rest, rfl, h⟩
  · rename_i hslashes
    simp only [List.span_eq_takeWhile_dropWhile] at h
    cases h
    split at hpath
    · rename_i path hrooted
      rcases cs with _ | ⟨c, rest⟩
      · cases hrooted
      cases hc : endsPath c with
      | true =>
        rw [List.takeWhile_cons_of_neg (by simp [hc])] at hrooted
        cases hrooted
      | false =>
        rw [List.takeWhile_cons_of_pos (by simp [hc])] at hrooted
        rw [(List.cons.inj hrooted).1] at hslashes ⊢
        refine .inr ⟨rest, rfl, ?_⟩
        intro hhead
        obtain ⟨rest', rfl⟩ := List.head?_eq_some_iff.mp hhead
        exact hslashes rest' rfl
    · cases hpath

/-! ## Schemes -/

theorem endsPath_of_isSchemeChar {c : Char} (h : isSchemeChar c = true) : endsPath c = false := by
  cases hc : endsPath c with
  | false => rfl
  | true =>
    simp only [endsPath, Bool.or_eq_true, beq_iff_eq] at hc
    rcases hc with rfl | rfl <;> cases h

theorem splitScheme?_of_front {front : List Char} (h : ∀ c ∈ front, isSchemeChar c = true)
    {first : Char} (hfirst : front.head? = some first) (halpha : first.isAlpha = true)
    (rest : List Char) :
    splitScheme? (front ++ ':' :: rest) = some (String.ofList (front.map Char.toLower), rest) := by
  have hcolon : isSchemeChar ':' = false := rfl
  unfold splitScheme?
  rw [List.takeWhile_append_of_pos h, List.dropWhile_append_of_pos h, List.head?_append, hfirst,
    List.dropWhile_cons_of_neg (by simp [hcolon]), List.takeWhile_cons_of_neg (by simp [hcolon]),
    List.append_nil]
  simp [halpha]

theorem exists_first_of_splitScheme? {cs rest : List Char} {scheme : String}
    (h : splitScheme? cs = some (scheme, rest)) :
    ∃ first, cs.head? = some first ∧ first.isAlpha = true := by
  unfold splitScheme? at h
  split at h
  · rename_i first _ hfirst _
    split at h
    · rename_i halpha
      exact ⟨first, hfirst, halpha⟩
    · cases h
  · cases h

/-- A scheme is read from what stands before the rest, whatever the rest is. -/
theorem exists_front_of_splitScheme? {cs rest : List Char} {scheme : String}
    (h : splitScheme? cs = some (scheme, rest)) :
    ∃ front, cs = front ++ rest ∧ (∀ c ∈ front, endsPath c = false) ∧
      ∀ other, splitScheme? (front ++ other) = some (scheme, other) := by
  unfold splitScheme? at h
  split at h
  · rename_i first rest' hhead hcolon
    split at h
    · rename_i halpha
      cases h
      have hcs : cs = cs.takeWhile isSchemeChar ++ ':' :: rest := by
        rw [← hcolon, List.takeWhile_append_dropWhile]
      have hfront : ∀ c ∈ cs.takeWhile isSchemeChar, isSchemeChar c = true :=
        fun _ hc => List.mem_takeWhile_imp hc
      have hfirst : (cs.takeWhile isSchemeChar).head? = some first := by
        rw [hcs, List.head?_append] at hhead
        cases hscheme : cs.takeWhile isSchemeChar with
        | nil =>
          rw [hscheme] at hhead
          cases hhead
          cases halpha
        | cons c cs =>
          rw [hscheme] at hhead
          exact hhead
      refine ⟨cs.takeWhile isSchemeChar ++ [':'], ?_, ?_, ?_⟩
      · simpa using hcs
      · intro c hc
        rcases List.mem_append.mp hc with hc | hc
        · exact endsPath_of_isSchemeChar (hfront c hc)
        · rw [List.mem_singleton.mp hc]
          rfl
      · intro other
        rw [List.append_assoc]
        exact splitScheme?_of_front hfront hfirst halpha other
    · cases h
  · cases h

/-! ## Whole texts -/

/-- The URL of a scheme and what follows it. -/
def ofScheme (scheme : String) (rest : List Char) : Except UrlError Url :=
  if scheme = "file" then ofFileText scheme rest
  else if isSpecialScheme scheme then ofAuthorityText scheme true (rest.dropWhile (isSlash true))
  else ofPlainText scheme rest

theorem ofText_eq_ok_iff {text : String} {u : Url} :
    ofText text = .ok u ↔
      ∃ scheme rest, splitScheme? (significant text.toList) = some (scheme, rest) ∧
        ofScheme scheme rest = .ok u := by
  unfold ofText
  constructor
  · intro h
    split at h
    · cases h
    · rename_i scheme rest hscheme
      exact ⟨scheme, rest, hscheme, h⟩
  · rintro ⟨scheme, rest, hscheme, h⟩
    rw [hscheme]
    exact h

theorem slashFree_of_ofScheme {scheme : String} {rest : List Char} {u : Url}
    (h : ofScheme scheme rest = .ok u) {names : List String} (hpath : u.path = .segments names) :
    SlashFree names := by
  unfold ofScheme at h
  split at h
  · exact slashFree_of_ofFileText h hpath
  split at h
  · exact slashFree_of_ofAuthorityText h hpath
  rcases ofPlainText_cases h hpath with ⟨rest, -, hread⟩ | ⟨rest, rfl, hhead⟩
  · exact slashFree_of_ofAuthorityText hread hpath
  · rw [ofPlainText_of_rooted scheme hhead] at h
    cases h
    rw [← UrlPath.segments.inj hpath]
    exact slashFree_pathOf _ _ _

/-- A scheme with rules of its own takes no empty host. -/
theorem takeWhile_ne_of_special {scheme : String} {cs : List Char} {u : Url}
    (h : ofAuthorityText scheme true cs = .ok u) :
    cs.takeWhile (!endsAuthority true ·) ≠ [] ∧ cs.takeWhile (!endsAuthority true ·) ≠ ['@'] := by
  rw [ofAuthorityText_eq] at h
  split at h
  · cases h
  obtain ⟨read, hread, -⟩ := map_eq_ok_iff.mp h
  constructor
  · intro hnone
    rw [hnone] at hread
    cases hread
  · intro hat
    rw [hat] at hread
    cases hread

theorem slashFree_of_ofText {text : String} {u : Url} (h : ofText text = .ok u)
    {names : List String} (hpath : u.path = .segments names) : SlashFree names := by
  obtain ⟨scheme, rest, -, hread⟩ := ofText_eq_ok_iff.mp h
  exact slashFree_of_ofScheme hread hpath

/-! ## What counts of a text -/

theorem dropWhile_of_head? {p : Char → Bool} {cs : List Char} {c : Char} (h : cs.head? = some c)
    (hc : p c = false) : cs.dropWhile p = cs := by
  obtain ⟨rest, rfl⟩ := List.head?_eq_some_iff.mp h
  exact List.dropWhile_cons_of_neg (by simp [hc])

/-- What counts of a text has no tabs and line breaks, and no controls and spaces at
its end. -/
structure Counts (cs : List Char) : Prop where
  whole : ∀ c ∈ cs, isIgnored c = false
  last : ∀ c, cs.getLast? = some c → 0x20 < c.toNat

theorem isIgnored_of_lt {c : Char} (h : 0x20 < c.toNat) : isIgnored c = false := by
  cases hc : isIgnored c with
  | false => rfl
  | true =>
    simp only [isIgnored, Bool.or_eq_true, beq_iff_eq] at hc
    rcases hc with (rfl | rfl) | rfl <;> exact absurd h (by decide)

theorem counts_significant (cs : List Char) : Counts (significant cs) := by
  unfold significant
  dsimp only
  constructor
  · intro c hc
    simpa using (List.mem_filter.mp hc).2
  · intro c hc
    generalize cs.dropWhile (fun c => decide (c.toNat ≤ 0x20)) = trimmed at hc
    have hedge := List.head?_dropWhile_not (fun c : Char => decide (c.toNat ≤ 0x20)) trimmed.reverse
    cases hkept : trimmed.reverse.dropWhile (fun c => decide (c.toNat ≤ 0x20)) with
    | nil =>
      rw [hkept] at hc
      cases hc
    | cons last kept =>
      rw [hkept] at hc hedge
      have hlast : 0x20 < last.toNat := by simpa using hedge
      rw [List.reverse_cons, List.filter_append, List.filter_singleton, isIgnored_of_lt hlast] at hc
      rw [← Option.some.inj (List.getLast?_concat.symm.trans hc)]
      exact hlast

theorem toNat_of_isAlpha {c : Char} (h : c.isAlpha = true) : 65 ≤ c.toNat ∧ c.toNat ≤ 122 := by
  have hA : 'A'.val.toNat = 65 := rfl
  have hZ : 'Z'.val.toNat = 90 := rfl
  have ha : 'a'.val.toNat = 97 := rfl
  have hz : 'z'.val.toNat = 122 := rfl
  have hc : c.val.toNat = c.toNat := rfl
  have hletter : (decide (c.val ≥ 'A'.val ∧ c.val ≤ 'Z'.val) ||
      decide (c.val ≥ 'a'.val) && decide (c.val ≤ 'z'.val)) = true := h
  simp only [Bool.or_eq_true, Bool.and_eq_true, decide_eq_true_eq, ge_iff_le,
    UInt32.le_iff_toNat_le, hA, hZ, ha, hz, hc] at hletter
  omega

/-- A control at the end keeps what is before it from being trimmed, and does not count. -/
theorem trimmed_and_significant {cs : List Char} (h : Counts cs) {first : Char}
    (hfirst : cs.head? = some first) (halpha : first.isAlpha = true) :
    trimmed (String.ofList (cs ++ ['\x01'])) = String.ofList (cs ++ ['\x01']) ∧
    significant (cs ++ ['\x01']) = cs := by
  have hfront : (cs ++ ['\x01']).head? = some first := by
    rw [List.head?_append, hfirst]
    rfl
  have hback : (cs ++ ['\x01']).reverse = '\x01' :: cs.reverse := List.reverse_concat ..
  obtain ⟨hlow, hhigh⟩ := toNat_of_isAlpha halpha
  constructor
  · have hblank : isBlank first = false := by
      simp only [isBlank, Bool.or_eq_false_iff, Bool.and_eq_false_iff, decide_eq_false_iff_not,
        beq_eq_false_iff_ne]
      omega
    rw [trimmed, String.toList_ofList, trimBlanks, dropWhile_of_head? hfront hblank, hback,
      List.dropWhile_cons_of_neg (by decide), ← hback, List.reverse_reverse]
  · have hedge : decide (first.toNat ≤ 0x20) = false := decide_eq_false (by omega)
    unfold significant
    dsimp only
    rw [dropWhile_of_head? hfront hedge, hback, List.dropWhile_cons_of_pos (by decide)]
    have hkept : cs.reverse.dropWhile (fun c => decide (c.toNat ≤ 0x20)) = cs.reverse := by
      cases hlast : cs.getLast? with
      | none =>
        rw [List.getLast?_eq_none_iff.mp hlast]
        rfl
      | some last =>
        have hafter := h.last last hlast
        apply dropWhile_of_head? (List.head?_reverse.trans hlast)
        exact decide_eq_false (by omega)
    rw [hkept, List.reverse_reverse, List.filter_eq_self]
    intro c hc
    rw [h.whole c hc]
    rfl

end Provisioning.Url
