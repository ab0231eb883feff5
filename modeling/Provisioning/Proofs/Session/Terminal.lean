-- The terminal state of a session, told four ways: by the state itself, by the
-- latch, by the latest snapshot, and by the routes that a navigator was given.
import Mathlib.Tactic.TFAE
import Provisioning.Proofs.Session.Effect

namespace Provisioning

theorem Config.isTerminal_iff (c : Config) (state : Option String) :
    state.any c.isTerminal = true ↔
      ∃ marker, c.terminalMarker = some marker ∧ state = some marker := by
  cases state with
  | none =>
    constructor
    · intro h
      cases h
    · rintro ⟨marker, -, h⟩
      cases h
  | some text =>
    simp only [Option.any_some, Config.isTerminal, beq_iff_eq]
    constructor
    · intro h
      exact ⟨text, h, rfl⟩
    · rintro ⟨marker, h, he⟩
      cases he
      exact h

namespace Session

/-- The routes that a session has led to: the view of its application once it is
terminal, and none before. -/
def routesSoFar (s : Session) : List Route :=
  if s.state = .terminal then [.view s.appId] else []

/-- Snapshot and navigator agree with the state. -/
structure Guided (s : Session) : Prop where
  shown_iff : s.latest.state.any s.config.isTerminal = true ↔ s.state = .terminal
  navigator : s.latch.navigator = .recording s.routesSoFar

theorem Started.guided {config : Config} {appId : String} {source : Playback} {sink : SinkKind}
    {s : Session} (h : s.Started config appId source (.recording []) sink) : s.Guided where
  shown_iff := by simp [h.latest, h.idle]
  navigator := by simp [h.latch, h.idle, routesSoFar]

/-- Before the end, a snapshot shows some other state and no route has been taken. -/
theorem Guided.of_live {s : Session} (hg : s.Guided) (hlive : s.state.isFinal = false) :
    s.latest.state.any s.config.isTerminal = false ∧ s.latch.navigator = .recording [] := by
  have hne : s.state ≠ .terminal := by
    intro h
    rw [h] at hlive
    cases hlive
  constructor
  · by_contra hshown
    exact hne (hg.shown_iff.mp (by simpa using hshown))
  · rw [hg.navigator, routesSoFar, if_neg hne]

/-- A session that does not become terminal stays guided, if neither snapshot nor
latch say otherwise. -/
theorem guided_of_other {s : Session} (hstate : s.state ≠ .terminal)
    (hshown : s.latest.state.any s.config.isTerminal = false)
    (hnavigator : s.latch.navigator = .recording []) : s.Guided where
  shown_iff := by simp [hshown, hstate]
  navigator := by rw [hnavigator, routesSoFar, if_neg hstate]

theorem happen_guided {s : Session} (hs : s.Sound) (hg : s.Guided) (h : Happening) :
    (s.happen h).Guided := by
  have hconfig : (s.happen h).config = s.config := by simp [config]
  have happ : (s.happen h).appId = s.appId := by simp [appId]
  have he := (happen_spec hs h).2
  generalize s.occurrence? h = o at he
  cases he with
  | quiet state latest latch =>
    refine ⟨?_, ?_⟩
    · rw [latest, hconfig, state]
      exact hg.shown_iff
    · rw [latch, routesSoFar, state, happ]
      exact hg.navigator
  | began idle state latest latch =>
    obtain ⟨hshown, hnavigator⟩ := hg.of_live (by rw [idle]; rfl)
    exact guided_of_other (by simp [state]) (by rw [latest, hconfig]; exact hshown)
      (by rw [latch]; exact hnavigator)
  | failed e polling state latest latch =>
    obtain ⟨hshown, hnavigator⟩ := hg.of_live (by rw [polling]; rfl)
    exact guided_of_other (by simp [state]) (by rw [latest, hconfig]; exact hshown)
      (by rw [latch]; exact hnavigator)
  | progressed a time polling terminal state latest latch =>
    obtain ⟨-, hnavigator⟩ := hg.of_live (by rw [polling]; rfl)
    exact guided_of_other (by simp [state]) (by rw [latest, hconfig]; exact terminal)
      (by rw [latch]; exact hnavigator)
  | reached a time polling terminal state latest latch =>
    obtain ⟨-, hnavigator⟩ := hg.of_live (by rw [polling]; rfl)
    have hunfired := hs.unfired_of_polling polling
    refine ⟨?_, ?_⟩
    · rw [latest, hconfig, state]
      exact ⟨fun _ => rfl, fun _ => terminal⟩
    · rw [latch, routesSoFar, if_pos state, happ]
      simp [NavigationLatch.fire, hunfired, hnavigator, Navigator.navigate]
  | stopped reason live state latest latch =>
    obtain ⟨hshown, hnavigator⟩ := hg.of_live live
    exact guided_of_other (by simp [state]) (by rw [latest, hconfig]; exact hshown)
      (by rw [latch]; exact hnavigator)

theorem play_guided {s : Session} (hs : s.Sound) (hg : s.Guided) (hs' : List Happening) :
    (s.play hs').Guided := by
  induction hs' generalizing s with
  | nil => exact hg
  | cons h hs' ih => exact ih (happen_spec hs h).1 (happen_guided hs hg h)

theorem Guided.routes_eq {s : Session} (hg : s.Guided) :
    s.latch.navigator.routes = s.routesSoFar := by
  rw [hg.navigator, Navigator.routes]

/-- The four ways to tell that a session is terminal say the same. -/
theorem Guided.tfae {s : Session} (hs : s.Sound) (hg : s.Guided) :
    [s.state = .terminal,
      s.hasNavigated = true,
      ∃ marker, s.config.terminalMarker = some marker ∧ s.latest.state = some marker,
      s.latch.navigator.routes = [.view s.appId]].TFAE := by
  tfae_have 1 ↔ 2 := hs.fired_iff.symm
  tfae_have 1 ↔ 3 := hg.shown_iff.symm.trans (s.config.isTerminal_iff _)
  tfae_have 1 ↔ 4 := by
    rw [hg.routes_eq, routesSoFar]
    by_cases hstate : s.state = .terminal <;> simp [hstate]
  tfae_finish

/-- What was terminal once is terminal at the end of every longer run. -/
theorem terminal_of_earlier {s : Session} (hs : s.Sound) {earlier hs' : List Happening}
    (hearlier : earlier <+: hs') (hterminal : (s.play earlier).state = .terminal) :
    (s.play hs').state = .terminal := by
  obtain ⟨more, rfl⟩ := hearlier
  rw [play_append, (play_of_final (play_sound hs earlier) (by rw [hterminal]; rfl) more).1]
  exact hterminal

/-! ## The laws -/

/-- A session is terminal, has navigated, shows the terminal marker, and has sent its
navigator to the view of its application and nowhere else, all at once or not at
all; before that the navigator holds no route. A run that ends cancelled has never
navigated and never shown the marker on its way. -/
theorem terminal_navigated_and_shown_come_together {config : Config}
    (hvalid : config.validate = .ok config) (id appId : String) (source : Playback)
    (sink : SinkKind) (timeText : Nat → String) :
    ∃ s₀, Session.start id appId config source (.recording []) sink timeText = .ok s₀ ∧
      ∀ hs : List Happening,
        [(s₀.play hs).state = .terminal,
          (s₀.play hs).hasNavigated = true,
          ∃ marker, config.terminalMarker = some marker ∧
            (s₀.play hs).latest.state = some marker,
          (s₀.play hs).latch.navigator.routes = [.view appId]].TFAE ∧
        ((s₀.play hs).state ≠ .terminal → (s₀.play hs).latch.navigator.routes = []) ∧
        ((s₀.play hs).state = .cancelled → ∀ earlier, earlier <+: hs →
          (s₀.play earlier).hasNavigated = false ∧
          (s₀.play earlier).latch.navigator.routes = [] ∧
          ∀ marker, config.terminalMarker = some marker →
            (s₀.play earlier).latest.state ≠ some marker) := by
  obtain ⟨s₀, hstart, hs₀⟩ := exists_started hvalid id appId source (.recording []) sink timeText
  have hsound := hs₀.toSound
  have hguided := hs₀.guided
  refine ⟨s₀, hstart, fun hs => ?_⟩
  have hfour : ∀ hs', [(s₀.play hs').state = .terminal,
      (s₀.play hs').hasNavigated = true,
      ∃ marker, config.terminalMarker = some marker ∧ (s₀.play hs').latest.state = some marker,
      (s₀.play hs').latch.navigator.routes = [.view appId]].TFAE := by
    intro hs'
    have h := (play_guided hsound hguided hs').tfae (play_sound hsound hs')
    rw [play_config, play_appId, hs₀.config_eq, hs₀.appId_eq] at h
    exact h
  have hnone : ∀ hs', (s₀.play hs').state ≠ .terminal →
      (s₀.play hs').latch.navigator.routes = [] := by
    intro hs' hother
    rw [(play_guided hsound hguided hs').routes_eq, routesSoFar, if_neg hother]
  refine ⟨hfour hs, hnone hs, fun hcancelled earlier hearlier => ?_⟩
  have hother : (s₀.play earlier).state ≠ .terminal := by
    intro hterminal
    rw [terminal_of_earlier hsound hearlier hterminal] at hcancelled
    cases hcancelled
  have hfired_iff : (s₀.play earlier).state = .terminal ↔ (s₀.play earlier).hasNavigated = true :=
    (hfour earlier).out 0 1
  have hshown_iff : (s₀.play earlier).state = .terminal ↔ ∃ marker,
      config.terminalMarker = some marker ∧ (s₀.play earlier).latest.state = some marker :=
    (hfour earlier).out 0 2
  refine ⟨?_, hnone earlier hother, fun marker hmarker hshown => ?_⟩
  · by_contra hfired
    exact hother (hfired_iff.mpr (by simpa using hfired))
  · exact hother (hshown_iff.mpr ⟨marker, hmarker, hshown⟩)

/-- The terminal record ends one run; in another, a stop comes first. -/
theorem terminal_navigated_and_shown_after_two_moves :
    ∃ s₀, Session.start "s1" "a1" Config.standard
        { script := [.ok (.reporting "a1" "environment_vars" "finished")] } (.recording [])
        .discarding (fun _ => "") = .ok s₀ ∧
      (s₀.play [.move, .move]).state = .terminal ∧
      (s₀.play [.move, .move]).hasNavigated = true ∧
      (s₀.play [.move, .move]).latch.navigator.routes = [.view "a1"] ∧
      (s₀.play [.move, .stop "closed", .move]).state = .cancelled ∧
      (s₀.play [.move]).hasNavigated = false := by
  obtain ⟨s₀, hstart, hlaw⟩ := terminal_navigated_and_shown_come_together
    Config.standard_validate "s1" "a1"
    { script := [.ok (.reporting "a1" "environment_vars" "finished")] } .discarding (fun _ => "")
  have hs₀ := hstart
  rw [start_of_validate Config.standard_validate] at hs₀
  have hterminal : (s₀.play [.move, .move]).state = .terminal := by
    cases hs₀
    rfl
  have hcancelled : (s₀.play [.move, .stop "closed", .move]).state = .cancelled := by
    cases hs₀
    rfl
  obtain ⟨hfour, -, -⟩ := hlaw [.move, .move]
  obtain ⟨-, -, hearlier⟩ := hlaw [.move, .stop "closed", .move]
  refine ⟨s₀, hstart, hterminal, ?_, ?_, hcancelled, ?_⟩
  · exact (hfour.out 0 1 : _ ↔ _).mp hterminal
  · exact (hfour.out 0 3 : _ ↔ _).mp hterminal
  · exact (hearlier hcancelled [.move] (by simp)).1

end Session

end Provisioning
