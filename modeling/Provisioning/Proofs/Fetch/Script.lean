-- A scripted source in use: entries are pushed and fetches begin and end, in any order. The
-- entries are brought in turn, none is left out, and only the last one left is brought again.
import Mathlib.Data.List.Chain
import Mathlib.Data.List.Induction
import Provisioning.Fetch.Playback

namespace Provisioning

/-! ## One answer -/

namespace Playback

theorem answer_of_nil (p : Playback) (appId : String) (h : p.script = []) :
    (p.answer appId).2 = .error (exhausted appId) := by
  unfold answer
  simp only [h]

theorem answer_of_cons (p : Playback) (appId : String) {entry : FetchResult}
    {rest : List FetchResult} (h : p.script = entry :: rest) : (p.answer appId).2 = entry := by
  unfold answer
  cases rest with
  | nil => simp only [h]
  | cons next rest => simp only [h]

/-- An entry is used up, unless it is the last one. -/
theorem script_answer (p : Playback) (appId : String) :
    (p.answer appId).1.script = if 2 ≤ p.script.length then p.script.tail else p.script := by
  unfold answer
  match p.script with
  | [] => rfl
  | [_] => rfl
  | _ :: _ :: _ => simp

end Playback

/-! ## Steps -/

/-- What can be done to a scripted source. -/
inductive ScriptStep
  | push (entry : FetchResult)
  /-- A fetch begins. Others may begin and end before it does, and it may never end. -/
  | begin
  /-- A fetch ends. -/
  | finish (appId : String)

/-- A fetch that has ended: the entries that there had been by then, those of them that were
left, and what it brought. -/
structure Delivery where
  known : List FetchResult
  left : List FetchResult
  appId : String
  result : FetchResult

/-- The number of the entry that was brought, from 0 in the order in which entries came: that
of the first one left. -/
def Delivery.number? (d : Delivery) : Option Nat :=
  if d.left = [] then none else some (d.known.length - d.left.length)

/-- A scripted source, with all the entries that there have been and the fetches that have
ended. -/
structure ScriptRun where
  source : Playback
  entries : List FetchResult
  deliveries : List Delivery := []

namespace ScriptRun

def start (source : Playback) : ScriptRun := { source, entries := source.script }

/-- What a fetch brings that ends now. -/
def delivery (r : ScriptRun) (appId : String) : Delivery where
  known := r.entries
  left := r.source.script
  appId := appId
  result := (r.source.answer appId).2

def take (r : ScriptRun) : ScriptStep → ScriptRun
  | .push entry => { r with source := r.source.push entry, entries := r.entries ++ [entry] }
  | .begin => { r with source := r.source.call }
  | .finish appId =>
    { r with
      source := (r.source.answer appId).1
      deliveries := r.deliveries ++ [r.delivery appId] }

def takeAll (r : ScriptRun) (steps : List ScriptStep) : ScriptRun := steps.foldl take r

/-- The number of the first entry left. -/
def front (r : ScriptRun) : Nat := r.entries.length - r.source.script.length

theorem takeAll_snoc (r : ScriptRun) (steps : List ScriptStep) (step : ScriptStep) :
    r.takeAll (steps ++ [step]) = (r.takeAll steps).take step := by
  simp [takeAll]

/-- What the fetches that end are for, and the entries that there have been by then. -/
def asked (known : List FetchResult) : List ScriptStep → List (String × List FetchResult)
  | [] => []
  | .push entry :: rest => asked (known ++ [entry]) rest
  | .begin :: rest => asked known rest
  | .finish appId :: rest => (appId, known) :: asked known rest

end ScriptRun

/-! ## What a fetch brings -/

/-- What a fetch has brought: the first entry that was left, or the source's own error if there
had never been any. -/
structure Delivery.Tells (d : Delivery) : Prop where
  brought : d.known ≠ [] →
    ∃ n, d.number? = some n ∧ d.known[n]? = some d.result ∧ d.left = d.known.drop n
  exhausted : d.known = [] →
    d.number? = none ∧ d.result = .error (Playback.exhausted d.appId)

/-- The numbers of the entries that fetches have brought. -/
def numbersBrought (deliveries : List Delivery) : List Nat :=
  deliveries.filterMap Delivery.number?

/-- Entries are brought in turn. -/
structure InTurn (deliveries : List Delivery) : Prop where
  starts : ∀ n ∈ (numbersBrought deliveries).head?, n = 0
  grows : (numbersBrought deliveries).IsChain fun n next => n ≤ next ∧ next ≤ n + 1
  again : deliveries.Pairwise fun d later =>
    ∀ n, d.number? = some n → later.number? = some n → d.left.length = 1

theorem numbersBrought_snoc (deliveries : List Delivery) (d : Delivery) :
    numbersBrought (deliveries ++ [d]) = numbersBrought deliveries ++ d.number?.toList := by
  unfold numbersBrought
  rw [List.filterMap_append]
  cases h : d.number? <;> simp [h]

theorem InTurn.snoc {deliveries : List Delivery} (h : InTurn deliveries) {d : Delivery}
    (hstart : numbersBrought deliveries = [] → ∀ n ∈ d.number?, n = 0)
    (hnext : ∀ m ∈ (numbersBrought deliveries).getLast?, ∀ n ∈ d.number?, m ≤ n ∧ n ≤ m + 1)
    (hagain : ∀ e ∈ deliveries, ∀ n, e.number? = some n → d.number? = some n → e.left.length = 1) :
    InTurn (deliveries ++ [d]) where
  starts := by
    intro n hn
    rw [numbersBrought_snoc, List.head?_append] at hn
    by_cases hnone : numbersBrought deliveries = []
    · apply hstart hnone
      simpa [hnone] using hn
    · obtain ⟨m, hm⟩ := Option.ne_none_iff_exists'.mp (mt List.head?_eq_none_iff.mp hnone)
      apply h.starts
      rw [hm] at hn ⊢
      exact hn
  grows := by
    rw [numbersBrought_snoc, List.isChain_append]
    refine ⟨h.grows, ?_, ?_⟩
    · cases d.number? with
      | none => exact List.isChain_nil
      | some n => exact List.isChain_singleton n
    · intro m hm n hn
      apply hnext m hm
      cases hd : d.number? with
      | none => simp [hd] at hn
      | some k => simpa [hd] using hn
  again := by
    rw [List.pairwise_append]
    refine ⟨h.again, List.pairwise_singleton _ _, ?_⟩
    intro e he d' hd'
    rw [List.mem_singleton.mp hd']
    exact hagain e he

theorem Delivery.number?_of_left {d : Delivery} (h : d.left ≠ []) :
    d.number? = some (d.known.length - d.left.length) := by
  unfold number?
  rw [if_neg h]

theorem Delivery.number?_of_nothing {d : Delivery} (h : d.left = []) : d.number? = none := by
  unfold number?
  rw [if_pos h]

namespace ScriptRun

/-- How a run stands: what is left is the end of what there has been, and the entries before
it have been brought, the first one left only if it is alone. -/
structure Sound (r : ScriptRun) : Prop where
  left : r.source.script <:+ r.entries
  some_left : r.entries ≠ [] → r.source.script ≠ []
  tells : ∀ d ∈ r.deliveries, d.Tells
  behind : ∀ d ∈ r.deliveries, ∀ n ∈ d.number?,
    n ≤ r.front ∧ (n = r.front → d.left.length = 1)
  fresh : numbersBrought r.deliveries = [] → r.front = 0
  close : ∀ n ∈ (numbersBrought r.deliveries).getLast?, r.front ≤ n + 1
  inTurn : InTurn r.deliveries

theorem sound_start (source : Playback) : (start source).Sound where
  left := List.suffix_refl _
  some_left h := h
  tells := nofun
  behind := nofun
  fresh _ := Nat.sub_self _
  close := nofun
  inTurn := ⟨nofun, List.isChain_nil, List.Pairwise.nil⟩

/-- A fetch that ends brings the first entry left, if any is. -/
theorem number?_delivery {r : ScriptRun} (appId : String) (h : r.source.script ≠ []) :
    (r.delivery appId).number? = some r.front :=
  Delivery.number?_of_left h

theorem left_finish (r : ScriptRun) (appId : String) :
    (r.take (.finish appId)).source.script <:+ r.source.script ∧
      (r.source.script ≠ [] → (r.take (.finish appId)).source.script ≠ []) := by
  show (r.source.answer appId).1.script <:+ r.source.script ∧
    (r.source.script ≠ [] → (r.source.answer appId).1.script ≠ [])
  rw [r.source.script_answer appId]
  split
  · rename_i htwo
    refine ⟨List.tail_suffix _, ?_⟩
    intro _ hnil
    have hlength := congrArg List.length hnil
    rw [List.length_tail, List.length_nil] at hlength
    omega
  · exact ⟨List.suffix_refl _, id⟩

section
variable {r : ScriptRun} (h : r.Sound)
include h

theorem Sound.le_front {n : Nat} (hn : n ∈ (numbersBrought r.deliveries).getLast?) :
    n ≤ r.front := by
  have hmem := List.mem_of_getLast? hn
  obtain ⟨d, hd, hnumber⟩ := List.mem_filterMap.mp hmem
  exact (h.behind d hd n hnumber).1

/-- What is left and what there has been may change together, as long as the same entry comes
first. -/
theorem Sound.of_front {next : ScriptRun} (hdeliveries : next.deliveries = r.deliveries)
    (hleft : next.source.script <:+ next.entries)
    (hsome : next.entries ≠ [] → next.source.script ≠ []) (hfront : next.front = r.front) :
    next.Sound where
  left := hleft
  some_left := hsome
  tells := by
    rw [hdeliveries]
    exact h.tells
  behind := by
    rw [hdeliveries, hfront]
    exact h.behind
  fresh := by
    rw [hdeliveries, hfront]
    exact h.fresh
  close := by
    rw [hdeliveries, hfront]
    exact h.close
  inTurn := by
    rw [hdeliveries]
    exact h.inTurn

theorem Sound.push (entry : FetchResult) : (r.take (.push entry)).Sound := by
  refine h.of_front ?_ ?_ ?_ ?_
  · rfl
  · obtain ⟨passed, hpassed⟩ := h.left
    refine ⟨passed, ?_⟩
    show passed ++ (r.source.script ++ [entry]) = r.entries ++ [entry]
    rw [← List.append_assoc, hpassed]
  · intro _
    exact List.append_ne_nil_of_right_ne_nil _ (List.cons_ne_nil _ _)
  · show (r.entries ++ [entry]).length - (r.source.script ++ [entry]).length = r.front
    simp only [List.length_append, List.length_singleton, front]
    omega

theorem Sound.tells_delivery (appId : String) : (r.delivery appId).Tells where
  brought := by
    intro hknown
    have hleft := h.some_left hknown
    have hdrop : r.source.script = r.entries.drop r.front := List.suffix_iff_eq_drop.mp h.left
    obtain ⟨entry, rest, hscript⟩ := List.exists_cons_of_ne_nil hleft
    refine ⟨r.front, Delivery.number?_of_left hleft, ?_, hdrop⟩
    show r.entries[r.front]? = some (r.source.answer appId).2
    rw [r.source.answer_of_cons appId hscript, ← Nat.add_zero r.front, ← List.getElem?_drop,
      ← hdrop, hscript]
    rfl
  exhausted := by
    intro hknown
    have hleft : r.source.script = [] := by
      have hsuffix := h.left
      rw [show r.entries = [] from hknown] at hsuffix
      exact List.suffix_nil.mp hsuffix
    exact ⟨Delivery.number?_of_nothing hleft, r.source.answer_of_nil appId hleft⟩

theorem Sound.front_finish (appId : String) :
    (r.take (.finish appId)).front =
      if 2 ≤ r.source.script.length then r.front + 1 else r.front := by
  have hlength := h.left.length_le
  show r.entries.length - (r.source.answer appId).1.script.length = _
  rw [r.source.script_answer appId]
  unfold front
  split
  · rw [List.length_tail]
    omega
  · rfl

theorem Sound.finish (appId : String) : (r.take (.finish appId)).Sound := by
  have hfront := h.front_finish appId
  have hleft := r.left_finish appId
  have hnumber : ∀ n ∈ (r.delivery appId).number?, n = r.front ∧ r.source.script ≠ [] := by
    intro n hn
    by_cases hnil : r.source.script = []
    · rw [Delivery.number?_of_nothing hnil] at hn
      cases hn
    · rw [number?_delivery appId hnil] at hn
      exact ⟨(Option.some.inj hn).symm, hnil⟩
  have hnumbers : numbersBrought (r.take (.finish appId)).deliveries =
      numbersBrought r.deliveries ++ (r.delivery appId).number?.toList := numbersBrought_snoc _ _
  exact {
    left := hleft.1.trans h.left
    some_left := fun hknown => hleft.2 (h.some_left hknown)
    tells := by
      intro d hd
      rcases List.mem_append.mp hd with hd | hd
      · exact h.tells d hd
      · rw [List.mem_singleton.mp hd]
        exact h.tells_delivery appId
    behind := by
      intro d hd n hn
      rw [hfront]
      rcases List.mem_append.mp hd with hd | hd
      · have hbehind := h.behind d hd n hn
        split
        · omega
        · exact hbehind
      · rw [List.mem_singleton.mp hd] at hn ⊢
        obtain ⟨rfl, hsome⟩ := hnumber n hn
        have hpos := List.length_pos_iff.mpr hsome
        split
        · omega
        · refine ⟨Nat.le_refl _, fun _ => ?_⟩
          show r.source.script.length = 1
          omega
    fresh := by
      intro hnone
      rw [hnumbers, List.append_eq_nil_iff] at hnone
      have hnil : r.source.script = [] := by
        by_contra hsome
        rw [number?_delivery appId hsome] at hnone
        cases hnone.2
      rw [hfront, hnil]
      exact h.fresh hnone.1
    close := by
      intro n hn
      rw [hnumbers, List.getLast?_append] at hn
      rw [hfront]
      by_cases hnil : r.source.script = []
      · rw [Delivery.number?_of_nothing hnil] at hn
        rw [hnil]
        exact h.close n hn
      · rw [number?_delivery appId hnil] at hn
        have hlast : r.front = n := Option.some.inj hn
        split <;> omega
    inTurn := by
      apply h.inTurn.snoc
      · intro hnone n hn
        rw [(hnumber n hn).1]
        exact h.fresh hnone
      · intro m hm n hn
        rw [(hnumber n hn).1]
        exact ⟨h.le_front hm, h.close m hm⟩
      · intro e he n hn hsame
        exact (h.behind e he n hn).2 (hnumber n hsame).1 }

theorem Sound.take (step : ScriptStep) : (r.take step).Sound := by
  cases step with
  | push entry => exact h.push entry
  | begin =>
    refine h.of_front ?_ h.left h.some_left ?_
    · rfl
    · rfl
  | finish appId => exact h.finish appId

end

/-- A run of a script that is left as it is: the entries that there are, the next one to be
brought, and what each fetch so far has brought. -/
structure Unpushed (script : List FetchResult) (r : ScriptRun) : Prop where
  entries : r.entries = script
  front : r.front = min r.deliveries.length (script.length - 1)
  numbers : ∀ n d, r.deliveries[n]? = some d →
    d.known = script ∧ d.number? = some (min n (script.length - 1))

theorem Unpushed.finish {script : List FetchResult} {r : ScriptRun} (h : r.Unpushed script)
    (hsound : r.Sound) (hscript : script ≠ []) (appId : String) :
    (r.take (.finish appId)).Unpushed script where
  entries := h.entries
  front := by
    have hlength := hsound.left.length_le
    have hfront := h.front
    have hcount : (r.take (.finish appId)).deliveries.length = r.deliveries.length + 1 := by
      show (r.deliveries ++ [r.delivery appId]).length = _
      simp
    have hleft := List.length_pos_iff.mpr (hsound.some_left (h.entries ▸ hscript))
    rw [hsound.front_finish appId, hcount]
    unfold ScriptRun.front at hfront ⊢
    rw [h.entries] at hfront hlength ⊢
    split <;> omega
  numbers := by
    intro n d hd
    have hcases : (r.deliveries ++ [r.delivery appId])[n]? = some d := hd
    rw [List.getElem?_append] at hcases
    split at hcases
    · exact h.numbers n d hcases
    · rename_i hn
      have hlast : n = r.deliveries.length := by
        by_contra hne
        rw [List.getElem?_eq_none (by rw [List.length_singleton]; omega)] at hcases
        cases hcases
      subst hlast
      rw [Nat.sub_self] at hcases
      cases hcases
      refine ⟨h.entries, ?_⟩
      rw [number?_delivery appId (hsound.some_left (h.entries ▸ hscript)), h.front]

end ScriptRun

end Provisioning
