-- A latch over a navigator, in any order of firings, direct calls and receptions: the first
-- firing alone sends a route, and the routes arrive as they were sent, until nobody is left
-- to receive them.
import Mathlib.Data.List.Induction
import Provisioning.Navigation.Latch

namespace Provisioning

/-! ## Routes one after the other -/

/-- A navigator that has taken routes one after the other. -/
def Navigator.navigateAll (n : Navigator) (routes : List Route) : Navigator :=
  routes.foldl (fun n route => (n.navigate route).1) n

theorem Navigator.navigateAll_recording (held routes : List Route) :
    (recording held).navigateAll routes = recording (held ++ routes) := by
  induction routes generalizing held with
  | nil => rw [List.append_nil]; rfl
  | cons route routes ih => exact (ih (held ++ [route])).trans (by simp)

theorem Navigator.navigateAll_channel (waiting routes : List Route) :
    (channel waiting true).navigateAll routes = channel (waiting ++ routes) true := by
  induction routes generalizing waiting with
  | nil => rw [List.append_nil]; rfl
  | cons route routes ih => exact (ih (waiting ++ [route])).trans (by simp)

/-- Without a receiver, routes go nowhere. -/
theorem Navigator.navigateAll_closed (routes : List Route) :
    (channel [] false).navigateAll routes = channel [] false := by
  induction routes with
  | nil => rfl
  | cons route routes ih => exact ih

/-! ## Steps -/

/-- What can be done to a latch and to both ends of its navigator. -/
inductive LatchStep
  | fire (appId : String)
  /-- Straight to the navigator. -/
  | navigate (route : Route)
  | receive
  | dropReceiver
deriving DecidableEq

/-- The identifier that a firing is for. -/
def LatchStep.fired? : LatchStep → Option String
  | fire id => some id
  | _ => none

/-- The route of a direct call. -/
def LatchStep.direct? : LatchStep → Option Route
  | navigate route => some route
  | _ => none

/-- What one more step sends, if there were these firings before. -/
def LatchStep.sends (before : List String) : LatchStep → List Route
  | fire id => if before = [] then [.view id] else []
  | navigate route => [route]
  | _ => []

/-- A latch with what its firings have answered and what was received. -/
structure LatchRun where
  latch : NavigationLatch
  answers : List (Option Route) := []
  received : List Route := []
deriving DecidableEq

namespace LatchRun

/-- A latch that has not fired, over a navigator. -/
def start (navigator : Navigator) : LatchRun := { latch := { navigator } }

def take (r : LatchRun) : LatchStep → LatchRun
  | .fire id =>
    let (latch, answer, _) := r.latch.fire id
    { r with latch, answers := r.answers ++ [answer] }
  | .navigate route => { r with latch := (r.latch.navigate route).1 }
  | .receive =>
    let (navigator, route) := r.latch.navigator.receive
    { r with latch := { r.latch with navigator }, received := r.received ++ route.toList }
  | .dropReceiver =>
    { r with latch := { r.latch with navigator := r.latch.navigator.dropReceiver } }

def takeAll (r : LatchRun) (steps : List LatchStep) : LatchRun := steps.foldl take r

theorem takeAll_append (r : LatchRun) (steps more : List LatchStep) :
    r.takeAll (steps ++ more) = (r.takeAll steps).takeAll more :=
  List.foldl_append

theorem takeAll_snoc (r : LatchRun) (steps : List LatchStep) (step : LatchStep) :
    r.takeAll (steps ++ [step]) = (r.takeAll steps).take step :=
  takeAll_append r steps [step]

/-! ## What steps ask for -/

/-- The firings, by what they are for. -/
def firings (steps : List LatchStep) : List String := steps.filterMap LatchStep.fired?

/-- The answers to firings: the first gets a route, and no other does. -/
def answersTo : List String → List (Option Route)
  | [] => []
  | id :: later => some (.view id) :: later.map fun _ => none

/-- The routes that are sent: those of direct calls and, in its place among them, that of
the first firing. -/
def sent : List LatchStep → List Route
  | [] => []
  | .fire id :: rest => .view id :: rest.filterMap LatchStep.direct?
  | .navigate route :: rest => route :: sent rest
  | _ :: rest => sent rest

theorem firings_snoc (steps : List LatchStep) (step : LatchStep) :
    firings (steps ++ [step]) = firings steps ++ step.fired?.toList := by
  simp only [firings, List.filterMap_append]
  cases step <;> rfl

theorem firings_snoc_of_none {step : LatchStep} (h : step.fired? = none) (steps : List LatchStep) :
    firings (steps ++ [step]) = firings steps := by
  rw [firings_snoc, h, Option.toList_none, List.append_nil]

theorem answersTo_snoc (ids : List String) (id : String) :
    answersTo (ids ++ [id]) = answersTo ids ++ [if ids = [] then some (.view id) else none] := by
  cases ids with
  | nil => rfl
  | cons first later => simp [answersTo]

theorem sent_snoc (steps : List LatchStep) (step : LatchStep) :
    sent (steps ++ [step]) = sent steps ++ step.sends (firings steps) := by
  induction steps with
  | nil => cases step <;> rfl
  | cons first rest ih =>
    cases first with
    | fire id =>
      simp only [List.cons_append, sent, List.filterMap_append]
      cases step <;> simp [LatchStep.sends, LatchStep.direct?, firings, LatchStep.fired?]
    | navigate route => exact congrArg (route :: ·) ih
    | receive => exact ih
    | dropReceiver => exact ih

/-! ## The latch -/

/-- The latch has fired if anything was to be fired for, and has answered accordingly,
whatever the navigator. -/
structure Answered (steps : List LatchStep) (r : LatchRun) : Prop where
  hasFired : r.latch.hasFired = !(firings steps).isEmpty
  answers : r.answers = answersTo (firings steps)

theorem fire_of_unfired {t : NavigationLatch} (h : t.hasFired = false) (id : String) :
    t.fire id = (⟨(t.navigator.navigate (.view id)).1, true⟩, some (.view id),
      ⟨.info, "Provisioning finished, navigating"⟩ :: (t.navigator.navigate (.view id)).2) := by
  simp [NavigationLatch.fire, h]

theorem fire_of_fired {t : NavigationLatch} (h : t.hasFired = true) (id : String) :
    t.fire id = (t, none, []) := by
  simp [NavigationLatch.fire, h]

theorem Answered.take {steps : List LatchStep} {r : LatchRun} (h : r.Answered steps)
    (step : LatchStep) : (r.take step).Answered (steps ++ [step]) := by
  obtain ⟨hfired, hanswers⟩ := h
  cases step with
  | fire id =>
    have hids : firings (steps ++ [.fire id]) = firings steps ++ [id] := firings_snoc _ _
    cases hlatch : r.latch.hasFired with
    | false =>
      have hnone : firings steps = [] := by simpa [hlatch] using hfired
      constructor
      · simp [LatchRun.take, fire_of_unfired hlatch, hids]
      · simp [LatchRun.take, fire_of_unfired hlatch, hids, hanswers, hnone, answersTo]
    | true =>
      have hsome : firings steps ≠ [] := by simpa [hlatch] using hfired
      constructor
      · simp [LatchRun.take, fire_of_fired hlatch, hids, hlatch]
      · simp [LatchRun.take, fire_of_fired hlatch, hids, hanswers, answersTo_snoc, hsome]
  | navigate route =>
    have hids : firings (steps ++ [.navigate route]) = firings steps := firings_snoc_of_none rfl _
    exact ⟨hids ▸ hfired, hids ▸ hanswers⟩
  | receive =>
    have hids : firings (steps ++ [.receive]) = firings steps := firings_snoc_of_none rfl _
    exact ⟨hids ▸ hfired, hids ▸ hanswers⟩
  | dropReceiver =>
    have hids : firings (steps ++ [.dropReceiver]) = firings steps := firings_snoc_of_none rfl _
    exact ⟨hids ▸ hfired, hids ▸ hanswers⟩

theorem answered_takeAll (navigator : Navigator) (steps : List LatchStep) :
    ((start navigator).takeAll steps).Answered steps := by
  induction steps using List.reverseRecOn with
  | nil => exact ⟨rfl, rfl⟩
  | append_singleton steps step ih =>
    rw [takeAll_snoc]
    exact ih.take step

/-! ## What a latch does to its navigator -/

theorem navigator_fire {steps : List LatchStep} {r : LatchRun} (h : r.Answered steps)
    (id : String) :
    (r.take (.fire id)).latch.navigator =
      r.latch.navigator.navigateAll ((LatchStep.fire id).sends (firings steps)) := by
  have hfired := h.hasFired
  cases hlatch : r.latch.hasFired with
  | false =>
    have hnone : firings steps = [] := by simpa [hlatch] using hfired
    simp [LatchRun.take, fire_of_unfired hlatch, LatchStep.sends, hnone, Navigator.navigateAll]
  | true =>
    have hsome : firings steps ≠ [] := by simpa [hlatch] using hfired
    simp [LatchRun.take, fire_of_fired hlatch, LatchStep.sends, hsome, Navigator.navigateAll]

/-- A recording navigator holds all that was sent, and the receiver's steps do nothing to it. -/
theorem recorded_takeAll (steps : List LatchStep) :
    let r := (start (.recording [])).takeAll steps
    r.latch.navigator = .recording (sent steps) ∧ r.received = [] := by
  induction steps using List.reverseRecOn with
  | nil => exact ⟨rfl, rfl⟩
  | append_singleton steps step ih =>
    have hanswered := answered_takeAll (.recording []) steps
    simp only [takeAll_snoc, sent_snoc]
    generalize (start (.recording [])).takeAll steps = r at ih hanswered
    obtain ⟨hnavigator, hreceived⟩ := ih
    cases step with
    | fire id =>
      refine ⟨?_, hreceived⟩
      rw [navigator_fire hanswered, hnavigator, Navigator.navigateAll_recording]
    | navigate route =>
      refine ⟨?_, hreceived⟩
      show (r.latch.navigator.navigate route).1 = _
      rw [hnavigator]
      rfl
    | receive => simp [LatchRun.take, hnavigator, Navigator.receive, LatchStep.sends, hreceived]
    | dropReceiver =>
      simp [LatchRun.take, hnavigator, Navigator.dropReceiver, LatchStep.sends, hreceived]

/-! ## A channel -/

/-- How it stands with a channel: what was received and what waits is what was sent, and
once the receiver is gone nothing waits. -/
structure Carried (steps : List LatchStep) (r : LatchRun) : Prop where
  held : .dropReceiver ∉ steps → ∃ waiting,
    r.latch.navigator = .channel waiting true ∧ r.received ++ waiting = sent steps
  gone : .dropReceiver ∈ steps →
    r.latch.navigator = .channel [] false ∧ r.received <+: sent steps

/-- Routes are sent. -/
theorem Carried.send {steps : List LatchStep} {r next : LatchRun} (h : r.Carried steps)
    {step : LatchStep} (hstep : step ≠ .dropReceiver)
    (hnavigator : next.latch.navigator =
      r.latch.navigator.navigateAll (step.sends (firings steps)))
    (hreceived : next.received = r.received) : next.Carried (steps ++ [step]) where
  held := by
    intro hdrop
    rw [List.mem_append, not_or] at hdrop
    obtain ⟨waiting, hchannel, hsent⟩ := h.held hdrop.1
    refine ⟨waiting ++ step.sends (firings steps), ?_, ?_⟩
    · rw [hnavigator, hchannel, Navigator.navigateAll_channel]
    · rw [hreceived, ← List.append_assoc, hsent, sent_snoc]
  gone := by
    intro hdrop
    have hbefore : .dropReceiver ∈ steps := by
      refine (List.mem_append.mp hdrop).resolve_right ?_
      rw [List.mem_singleton]
      exact hstep.symm
    obtain ⟨hchannel, hprefix⟩ := h.gone hbefore
    refine ⟨?_, ?_⟩
    · rw [hnavigator, hchannel, Navigator.navigateAll_closed]
    · rw [hreceived, sent_snoc]
      exact hprefix.trans (List.prefix_append _ _)

/-- The first of the waiting routes is received, if there is one. -/
theorem Carried.receive {steps : List LatchStep} {r : LatchRun} (h : r.Carried steps) :
    (r.take .receive).Carried (steps ++ [.receive]) := by
  have hsame : sent (steps ++ [.receive]) = sent steps := by simp [sent_snoc, LatchStep.sends]
  have hmem : .dropReceiver ∈ steps ++ [.receive] ↔ .dropReceiver ∈ steps := by simp
  refine ⟨?_, ?_⟩
  · rw [hmem, hsame]
    intro hdrop
    obtain ⟨waiting, hchannel, hsent⟩ := h.held hdrop
    cases waiting with
    | nil =>
      refine ⟨[], ?_, ?_⟩
      · simp [LatchRun.take, hchannel, Navigator.receive]
      · simpa [LatchRun.take, hchannel, Navigator.receive] using hsent
    | cons route waiting =>
      refine ⟨waiting, ?_, ?_⟩
      · simp [LatchRun.take, hchannel, Navigator.receive]
      · simpa [LatchRun.take, hchannel, Navigator.receive] using hsent
  · rw [hmem, hsame]
    intro hdrop
    obtain ⟨hchannel, hprefix⟩ := h.gone hdrop
    simpa [LatchRun.take, hchannel, Navigator.receive] using hprefix

/-- The receiver goes, and what waits is lost. -/
theorem Carried.drop {steps : List LatchStep} {r : LatchRun} (h : r.Carried steps) :
    (r.take .dropReceiver).Carried (steps ++ [.dropReceiver]) where
  held := by
    intro hdrop
    exact absurd (List.mem_append_right _ (List.mem_singleton.mpr rfl)) hdrop
  gone := by
    intro _
    have hsame : sent (steps ++ [.dropReceiver]) = sent steps := by
      simp [sent_snoc, LatchStep.sends]
    rw [hsame]
    by_cases hdrop : .dropReceiver ∈ steps
    · obtain ⟨hchannel, hprefix⟩ := h.gone hdrop
      refine ⟨?_, hprefix⟩
      simp [LatchRun.take, hchannel, Navigator.dropReceiver]
    · obtain ⟨waiting, hchannel, hsent⟩ := h.held hdrop
      refine ⟨?_, waiting, hsent⟩
      simp [LatchRun.take, hchannel, Navigator.dropReceiver]

theorem carried_takeAll (steps : List LatchStep) :
    ((start .newChannel).takeAll steps).Carried steps := by
  induction steps using List.reverseRecOn with
  | nil =>
    refine ⟨?_, ?_⟩
    · intro _
      exact ⟨[], rfl, rfl⟩
    · intro hdrop
      cases hdrop
  | append_singleton steps step ih =>
    have hanswered := answered_takeAll .newChannel steps
    rw [takeAll_snoc]
    cases step with
    | fire id => exact ih.send (by simp) (navigator_fire hanswered id) rfl
    | navigate route => exact ih.send (by simp) rfl rfl
    | receive => exact ih.receive
    | dropReceiver => exact ih.drop

/-- Without a receiver a step changes neither the navigator nor what was received. -/
theorem take_of_closed {r : LatchRun} (h : r.latch.navigator = .channel [] false)
    (step : LatchStep) :
    (r.take step).latch.navigator = .channel [] false ∧ (r.take step).received = r.received := by
  cases step with
  | fire id =>
    cases hlatch : r.latch.hasFired with
    | false => simp [LatchRun.take, fire_of_unfired hlatch, h, Navigator.navigate]
    | true => simp [LatchRun.take, fire_of_fired hlatch, h]
  | navigate route => simp [LatchRun.take, NavigationLatch.navigate, h, Navigator.navigate]
  | receive => simp [LatchRun.take, h, Navigator.receive]
  | dropReceiver => simp [LatchRun.take, h, Navigator.dropReceiver]

theorem received_of_closed {r : LatchRun} (h : r.latch.navigator = .channel [] false)
    (more : List LatchStep) : (r.takeAll more).received = r.received := by
  induction more generalizing r with
  | nil => rfl
  | cons step more ih =>
    obtain ⟨hclosed, hreceived⟩ := take_of_closed h step
    exact (ih hclosed).trans hreceived

/-- A reception brings nothing only if nothing waits. -/
theorem Carried.nothing_left {steps : List LatchStep} {r : LatchRun} (h : r.Carried steps)
    (hnone : r.latch.navigator.receive.2 = none) :
    r.received = sent steps ∨ .dropReceiver ∈ steps := by
  by_cases hdrop : .dropReceiver ∈ steps
  · exact .inr hdrop
  · obtain ⟨waiting, hchannel, hsent⟩ := h.held hdrop
    cases waiting with
    | nil => exact .inl (by simpa using hsent)
    | cons route waiting => simp [hchannel, Navigator.receive] at hnone

theorem Carried.received_prefix {steps : List LatchStep} {r : LatchRun} (h : r.Carried steps) :
    r.received <+: sent steps := by
  by_cases hdrop : .dropReceiver ∈ steps
  · exact (h.gone hdrop).2
  · obtain ⟨waiting, -, hsent⟩ := h.held hdrop
    exact ⟨waiting, hsent⟩

/-! ## The law -/

theorem firings_ne_nil_iff {steps : List LatchStep} :
    firings steps ≠ [] ↔ ∃ id, .fire id ∈ steps := by
  rw [ne_eq, firings, List.filterMap_eq_nil_iff]
  constructor
  · intro h
    by_contra hnone
    apply h
    intro step hstep
    cases step with
    | fire id => exact absurd ⟨id, hstep⟩ hnone
    | navigate route => rfl
    | receive => rfl
    | dropReceiver => rfl
  · rintro ⟨id, hid⟩ hall
    cases hall _ hid

/-- The receiver's going is no firing. -/
theorem firings_filter (steps : List LatchStep) :
    firings (steps.filter (· ≠ .dropReceiver)) = firings steps := by
  unfold firings
  rw [List.filterMap_filter]
  congr 1
  funext step
  cases step <;> simp [LatchStep.fired?]

/-- What a run has come to, over any navigator, as far as its firings go. -/
structure FiresOnce (steps : List LatchStep) (r : LatchRun) : Prop where
  answers : r.answers = answersTo (firings steps)
  hasFired_iff : r.latch.hasFired = true ↔ ∃ id, .fire id ∈ steps

/-- What a run over a channel has come to, as far as the receiver goes. -/
structure Delivers (steps : List LatchStep) (r : LatchRun) : Prop where
  in_order : r.received <+: sent steps
  nothing_left : r.latch.navigator.receive.2 = none →
    r.received = sent steps ∨ .dropReceiver ∈ steps
  /-- Once the receiver is gone, whatever is still done goes through and brings nothing. -/
  after_drop : .dropReceiver ∈ steps → ∀ more,
    (r.takeAll more).received = r.received ∧ (r.takeAll more).FiresOnce (steps ++ more)
  /-- To firings it makes no difference whether and when the receiver goes. -/
  same_without_drop :
    let kept := (start .newChannel).takeAll (steps.filter (· ≠ .dropReceiver))
    kept.answers = r.answers ∧ kept.latch.hasFired = r.latch.hasFired

theorem Answered.firesOnce {steps : List LatchStep} {r : LatchRun} (h : r.Answered steps) :
    r.FiresOnce steps where
  answers := h.answers
  hasFired_iff := by
    rw [h.hasFired, ← firings_ne_nil_iff]
    simp

/-- Whatever is done to a latch and both ends of its channel, in whatever order: of all
firings the first alone gets a route, to the view of its own application. What is received
is a first part of what was sent, and all of it whenever nothing more comes, unless the
receiver is gone; that stops the receiving and nothing else. A recording navigator holds
all that was sent. -/
theorem first_firing_counts_and_routes_arrive_in_order (steps : List LatchStep) :
    ((start .newChannel).takeAll steps).FiresOnce steps ∧
      ((start .newChannel).takeAll steps).Delivers steps ∧
      ((start (.recording [])).takeAll steps).FiresOnce steps ∧
      ((start (.recording [])).takeAll steps).latch.navigator.routes = sent steps := by
  have hanswered := answered_takeAll .newChannel steps
  have hcarried := carried_takeAll steps
  refine ⟨hanswered.firesOnce, ?_, (answered_takeAll (.recording []) steps).firesOnce, ?_⟩
  · refine ⟨hcarried.received_prefix, hcarried.nothing_left, ?_, ?_⟩
    · intro hdrop more
      refine ⟨received_of_closed (hcarried.gone hdrop).1 more, ?_⟩
      have hrun := answered_takeAll .newChannel (steps ++ more)
      rw [takeAll_append] at hrun
      exact hrun.firesOnce
    · have hkept := answered_takeAll .newChannel (steps.filter (· ≠ .dropReceiver))
      constructor
      · rw [hkept.answers, hanswered.answers, firings_filter]
      · rw [hkept.hasFired, hanswered.hasFired, firings_filter]
  · rw [(recorded_takeAll steps).1]
    rfl

/-- A direct call, two firings, a reception, and the receiver goes while a route waits. -/
example :
    let steps : List LatchStep :=
      [.navigate (.provision "a"), .fire "a", .receive, .fire "b", .dropReceiver,
        .navigate (.view "c")]
    sent steps = [.provision "a", .view "a", .view "c"] ∧
      (start .newChannel).takeAll steps =
        { latch := ⟨.channel [] false, true⟩, answers := [some (.view "a"), none],
          received := [.provision "a"] } := by
  decide

end LatchRun

end Provisioning
