-- The whole output of a watch, from the replies of the service: the place that is tracked,
-- a block for each record up to the terminal one, and the place to go on to.
import Provisioning.CommandLine.Run
import Provisioning.Proofs.CommandLine.Layers
import Provisioning.Proofs.CommandLine.Turns
import Provisioning.Proofs.Http.Exchanges
import Provisioning.Proofs.Session.FetchTimes
import Provisioning.Proofs.Session.Terminal

namespace Provisioning

/-! ## A watch to its end -/

namespace Watch

/-- The last line is where the terminal session leads. -/
theorem ending_of_arrived {w : Watch} (h : w.session.Arrived) :
    w.ending? = some (.ok ["Provisioning finished, continue at /app/view/" ++ w.session.appId]) := by
  have hresult : w.session.pollWait.2 = .ended .terminal := by
    unfold Session.pollWait Session.stateResult
    rw [h.phase, h.state]
    split <;> rfl
  have hroute : "Provisioning finished, continue at " ++ (Route.view w.session.appId).path =
      "Provisioning finished, continue at /app/view/" ++ w.session.appId := by
    rw [show "Provisioning finished, continue at /app/view/" =
      "Provisioning finished, continue at " ++ "/app/view/" by decide, String.append_assoc]
    rfl
  unfold ending?
  rw [hresult]
  dsimp only
  rw [h.navigator]
  simp only [Navigator.receive, Option.map_some, Option.toList_some, hroute]

/-- What the watch of a session has come to once its printing task is told that all is over:
records are printed, and the route is waiting. -/
structure Concludes (s : Session) (records : List Application) (fetches : Nat) (w : Watch) :
    Prop where
  output : w.output.toList =
    ("Tracking /app/provision/" ++ s.appId) :: s.config.recordBlocks records
  ending : w.ending? = some (.ok ["Provisioning finished, continue at /app/view/" ++ s.appId])
  calls : w.session.source.calls = fetches

end Watch

namespace Session

variable {limit : Nat} {before : List FetchResult} {a : Application} {s : Session}

/-- Results whose records are those of replies without a terminal one have none either. -/
theorem not_terminal_of_records {config : Config} {marker : String}
    (hmarker : config.terminalMarker = some marker) {replies : List HttpReply} {time : Duration}
    (hother : ∀ r ∈ replies, ∀ a, r.record? time = some a → a.state config ≠ some marker)
    {results : List FetchResult}
    (hrecords : results.map FetchResult.record? = replies.map (·.record? time)) :
    ∀ result ∈ results, result.isTerminal config = false := by
  intro result hresult
  cases result with
  | error e => rfl
  | ok a =>
    have hmem := List.mem_map_of_mem (f := FetchResult.record?) hresult
    rw [hrecords] at hmem
    obtain ⟨r, hr, hrecord⟩ := List.mem_map.mp hmem
    rw [← Bool.not_eq_true]
    intro hterminal
    obtain ⟨m, hm, hstate⟩ := (config.isTerminal_iff (a.state config)).mp hterminal
    rw [hmarker] at hm
    rw [← Option.some.inj hm] at hstate
    exact hother r hr a hrecord hstate

/-- Replies with a terminal record among them let a session set out, with results that have the
records of the replies before that one. -/
theorem exists_setsOut {config : Config} (hvalid : config.validate = .ok config)
    {client : HttpClient} (hclient : client.Lawful) (source : HttpSource) {appId : String}
    (hurl : (source.recordUrl appId).isRequestable = true) {earlier later : List HttpReply}
    {last : HttpReply} (hdirect : ∀ r ∈ earlier ++ [last], r.isRedirect = false) {marker : String}
    (hmarker : config.terminalMarker = some marker)
    (hother : ∀ r ∈ earlier, ∀ a, r.record? source.timeout = some a → a.state config ≠ some marker)
    (hlast : last.record? source.timeout = some a) (hstate : a.state config = some marker)
    {service : HttpService} (hservice : service = { replies := earlier ++ last :: later })
    (timeText : Nat → String) :
    ∃ s₀ results, Session.start "" appId config (source.scripted client service appId)
        .newChannel (.logging .debug) timeText = .ok s₀ ∧ s₀.config = config ∧ s₀.appId = appId ∧
      results.map FetchResult.record? = earlier.map (·.record? source.timeout) ∧
      s₀.SetsOut source.timeout.ceilMillis results a := by
  subst hservice
  let service : HttpService := { replies := earlier ++ last :: later }
  let results := source.results client appId earlier.length service
  have hearlier : service.Awaits earlier := ⟨last :: later, rfl⟩
  obtain ⟨-, hrecords⟩ := HttpSource.exchanges_of_awaits hclient hurl hearlier
    fun r hr => hdirect r (List.mem_append_left _ hr)
  obtain ⟨rest, hscript⟩ : ∃ rest, (source.scripted client service appId).script =
      results ++ .ok a :: rest := HttpSource.scripted_script hclient hurl hdirect hlast
  have hterminal : FetchResult.isTerminal config (.ok a) = true :=
    (config.isTerminal_iff (a.state config)).mpr ⟨marker, hmarker, hstate⟩
  obtain ⟨s₀, hstart, hs₀⟩ := exists_started hvalid "" appId (source.scripted client service appId)
    .newChannel (.logging .debug) timeText
  have hsince : s₀.since = 0 := by
    rw [start_of_validate hvalid] at hstart
    rw [← Except.ok.inj hstart]
    rfl
  exact ⟨s₀, results, hstart, hs₀.config_eq, hs₀.appId_eq, hrecords, hs₀.setsOut hsince rfl
    (HttpSource.scripted_quick hclient service) ⟨rfl, rfl⟩ hscript
    (not_terminal_of_records hmarker hother hrecords) hterminal⟩

/-- A watch whose printing task looks between any two ends of fetches concludes with all the
records. -/
theorem SetsOut.concludes (h : s.SetsOut limit before a) {turns : List WatchTurn}
    (hattended : s.Attended true turns)
    (hover : ((Watch.ofSession s false).takeAll turns).IsOver) :
    ((Watch.ofSession s false).takeAll turns).Concludes s
      (before.filterMap FetchResult.record? ++ [a]) (before.length + 1) := by
  obtain ⟨looked, hprinted⟩ :=
    (Watch.printed_ofSession h.latest).takeAll h.heading.toSound hattended
  have hsession := (Watch.ofSession s false).takeAll_session turns
  change _ = s.play _ at hsession
  change ((Watch.ofSession s false).takeAll turns).Printed looked (s.records _) at hprinted
  generalize (Watch.ofSession s false).takeAll turns = w at hover hprinted hsession
  obtain ⟨hall, hended⟩ := hprinted.of_over hover
  have hcourse := h.course (turns.count .move)
  rw [← hsession] at hcourse
  obtain ⟨harrived, hresults⟩ := hcourse.arrived_of_ended hended
  have htracking : "Tracking " ++ (Route.provision w.session.appId).path =
      "Tracking /app/provision/" ++ w.session.appId := by
    rw [show "Tracking /app/provision/" = "Tracking " ++ "/app/provision/" by decide,
      String.append_assoc]
    rfl
  have hrecords : s.records (List.replicate (turns.count .move) .move) =
      before.filterMap FetchResult.record? ++ [a] := by
    rw [records, hresults, List.filterMap_append]
    rfl
  have happ : w.session.appId = s.appId := by rw [hsession, play_appId]
  have hconfig : w.session.config = s.config := by rw [hsession, play_config]
  refine ⟨?_, ?_, ?_⟩
  · rw [hall.output, hall.seen_eq rfl, List.take_length, hrecords, route, htracking, happ, hconfig]
  · rw [Watch.ending_of_arrived harrived, happ]
  · rw [hsession] at harrived ⊢
    rw [h.calls_of_arrived harrived, hresults, List.length_append, List.length_singleton]

/-- After the end of its session, such a watch is over with one more look. -/
theorem SetsOut.look_over (h : s.SetsOut limit before a) {turns : List WatchTurn}
    (hattended : s.Attended true turns)
    (harrived : ((Watch.ofSession s false).takeAll turns).session.Arrived) :
    ((Watch.ofSession s false).takeAll turns).look.IsOver := by
  obtain ⟨looked, hprinted⟩ :=
    (Watch.printed_ofSession h.latest).takeAll h.heading.toSound hattended
  apply hprinted.look_over
  rw [harrived.phase]
  rfl

/-- A watch that runs by itself for long enough concludes. -/
theorem SetsOut.concludes_runWhile (h : s.SetsOut limit before a) {time : Nat}
    (htime : (before.length + 1) * (s.plan.restMs + limit) < time) :
    ((Watch.ofSession s false).runWhile (fun _ => true) time).Concludes s
      (before.filterMap FetchResult.record? ++ [a]) (before.length + 1) := by
  obtain ⟨n, hn⟩ := Watch.exists_takeAll_runWhile (fun _ => true) time (.ofSession s false)
  have harrived : ((Watch.ofSession s false).runWhile (fun _ => true) time).session.Arrived := by
    rw [Watch.runWhile_session]
    exact h.arrived_of_runWhile htime
  have hattended := s.attended_alternating n
  rw [hn] at harrived ⊢
  apply h.concludes hattended
  cases n with
  | zero =>
    have hphase : s.phase = .ended (.finished .terminal) := harrived.phase
    rw [h.ready] at hphase
    contradiction
  | succ n =>
    rw [WatchTurn.alternating_snoc] at harrived hattended ⊢
    rw [Watch.takeAll_snoc, Watch.take] at harrived ⊢
    rw [Watch.look_session] at harrived
    exact h.look_over hattended.of_append harrived

end Session

/-! ## The command -/

/-- With nothing in the environment, the options are over what they start from. -/
theorem CommonOptions.config_of_bare {o : CommonOptions} {contentOf : String → Option (List UInt8)}
    {base c : Config} (hbase : o.StartsFrom ⟨fun _ => none, contentOf⟩ base)
    (hvalid : base.fault? = none) (hcover : o.layer.cover base = c) (hc : c.fault? = none) :
    o.config ⟨fun _ => none, contentOf⟩ = .ok c :=
  config_eq_ok_iff.mpr ⟨base, {}, hbase,
    ⟨readsAs_none_iff.mpr rfl, rfl, readsAs_none_iff.mpr rfl⟩, hvalid, by
      rw [ConfigLayer.cover_nothing, hcover, hc], hcover⟩

namespace CommandLine

section
variable {line : CommandLine} {s : Surroundings} {appId : String} {filter : LogFilter}
  {config : Config} (hfilter : line.options.logFilter s = .ok filter)
  (hconfig : line.options.config s = .ok config)
include hfilter hconfig

/-- Once the settings are in order, all depends on the task. -/
theorem assignment_of_settings :
    line.assignment s =
      (task line.command config).map (⟨filter, line.options.logSettings.format, ·⟩) := by
  unfold assignment
  rw [hfilter, hconfig]
  simp only [bind, Except.bind]
  cases task line.command config <;> rfl

variable (hcommand : line.command = .watch appId false)
include hcommand

/-- The command line of a watch comes down to one. -/
theorem assignment_of_watch {source : HttpSource} (hsource : HttpSource.ofConfig config = .ok source) :
    line.assignment s =
      .ok ⟨filter, line.options.logSettings.format, .watch config source appId false⟩ := by
  rw [assignment_of_settings hfilter hconfig, hcommand, task, CommandLine.source, hsource]
  rfl

/-- Nothing can be watched without a source. -/
theorem assignment_of_refusal {e : ConfigError} (hsource : HttpSource.ofConfig config = .error e) :
    line.assignment s = .error ⟨"invalid API URL", e.causes⟩ := by
  rw [assignment_of_settings hfilter hconfig, hcommand, task, CommandLine.source, hsource]
  rfl

end

end CommandLine

namespace Scene

/-- Without an interruption, a watch runs for as long as one fetch more than there are replies
may take. -/
theorem follow_of_patient {s : Scene} (h : s.interruptAfter = none) (source : HttpSource)
    (w : Watch) :
    s.follow source w = w.runWhile (fun _ => true) (horizon w source (s.replies.length + 1)) := by
  unfold follow
  rw [h]

section
variable {s : Scene} {arguments : List String} {line : CommandLine} {appId : String}
  {filter : LogFilter} {config : Config}
  (harguments : CommandLine.ofArguments arguments = .ok line)
  (hcommand : line.command = .watch appId false)
  (hfilter : line.options.logFilter s.surroundings = .ok filter)
  (hconfig : line.options.config s.surroundings = .ok config)
include harguments hcommand hfilter hconfig

/-- The arguments of a watch lead to it, once its settings are in order. -/
theorem run_of_watch {source : HttpSource} (hsource : HttpSource.ofConfig config = .ok source)
    (timeText : Nat → String) :
    ∃ a, s.run arguments timeText = s.watch a config source appId false timeText := by
  refine ⟨⟨filter, line.options.logSettings.format, .watch config source appId false⟩, ?_⟩
  unfold run
  rw [harguments]
  dsimp only
  rw [CommandLine.assignment_of_watch hfilter hconfig hcommand hsource]

/-- They lead to a failure that says why there is no source. -/
theorem run_of_refusal {e : ConfigError} (hsource : HttpSource.ofConfig config = .error e)
    (timeText : Nat → String) :
    s.run arguments timeText = ({} : CommandOutcome).failing ⟨"invalid API URL", e.causes⟩ := by
  unfold run
  rw [harguments]
  dsimp only
  rw [CommandLine.assignment_of_refusal hfilter hconfig hcommand hsource]

end

/-- A watch that concludes is a success. Its requests are those of as many exchanges as it has
begun fetches. -/
theorem watch_of_concludes {s : Scene} {config : Config} {source : HttpSource} {appId : String}
    {timeText : Nat → String} {session : Session} {records : List Application} {fetches : Nat}
    (a : Assignment)
    (hstart : Session.start "" appId config (source.scripted s.client s.service appId) .newChannel
      (.logging .debug) timeText = .ok session)
    (h : (s.follow source (.ofSession session false)).Concludes session records fetches) :
    let outcome := s.watch a config source appId false timeText
    outcome.exitCode = some 0 ∧ outcome.errors = [] ∧
      outcome.output = ("Tracking /app/provision/" ++ session.appId) ::
        session.config.recordBlocks records ++
          ["Provisioning finished, continue at /app/view/" ++ session.appId] ∧
      outcome.requests = (source.exchanges s.client appId fetches s.service).1.served := by
  intro outcome
  have houtcome : outcome = s.watch a config source appId false timeText := rfl
  unfold watch at houtcome
  rw [hstart] at houtcome
  dsimp only at houtcome
  rw [h.ending] at houtcome
  rw [houtcome]
  refine ⟨rfl, rfl, ?_, ?_⟩
  · rw [← h.output]
    rfl
  · rw [← h.calls]
    rfl

/-- Where no request can be made for the record, a watch makes none. -/
theorem requests_of_unrequestable {s : Scene} (hclient : s.client.Lawful) {source : HttpSource}
    {appId : String} (hurl : (source.recordUrl appId).isRequestable = false) (a : Assignment)
    (config : Config) (asJson : Bool) (timeText : Nat → String) :
    (s.watch a config source appId asJson timeText).requests = [] := by
  have hserved (fetches : Nat) :
      (source.exchanges s.client appId fetches s.service).1.served = [] := by
    rw [HttpSource.exchanges_of_unrequestable hclient hurl]
    rfl
  unfold watch
  split
  · rfl
  · dsimp only
    split <;> exact hserved _

end Scene

/-! ## The law -/

namespace Scene

/-- The configuration is valid and the HTTP source takes it, and a request can be made for the
record; among the replies, `last` is the first complete success whose record carries the terminal
marker, and none up to it leads to another place.

Whatever turns the loop and the printing task take, if the task looks between any two ends
of fetches, then once it is told that all is over it has printed the place that is tracked
and a block for each record up to the one of `last`, numbered from 1, with nothing for a
reply that failed; the route is waiting, and no more requests have been made than there are
replies up to `last`. It is told so at its next look, once the loop has made two moves for
each of them. The command with this configuration prints the same and, once, the place to go
on to, and it succeeds after just these requests. -/
theorem watch_prints_each_record_and_the_end {client : HttpClient} (hclient : client.Lawful)
    {config : Config} (hvalid : config.validate = .ok config) {source : HttpSource}
    (hsource : HttpSource.ofConfig config = .ok source) (appId : String)
    (hurl : (source.recordUrl appId).isRequestable = true)
    (before after : List HttpReply) (last : HttpReply)
    (hdirect : ∀ r ∈ before ++ [last], r.isRedirect = false) {a : Application} {marker : String}
    (hmarker : config.terminalMarker = some marker)
    (hbefore : ∀ r ∈ before, ∀ a, r.record? config.timeout = some a → a.state config ≠ some marker)
    (hlast : last.record? config.timeout = some a) (hstate : a.state config = some marker)
    (timeText : Nat → String) :
    let service : HttpService := { replies := before ++ last :: after }
    let records := before.filterMap (·.record? config.timeout) ++ [a]
    let shown := ("Tracking /app/provision/" ++ appId) :: config.recordBlocks records
    let goingOn := "Provisioning finished, continue at /app/view/" ++ appId
    let asked := List.replicate (before.length + 1) (source.request (source.recordUrl appId))
    (∃ s₀, Session.start "" appId config (source.scripted client service appId) .newChannel
        (.logging .debug) timeText = .ok s₀ ∧
      ∀ turns, s₀.Attended true turns →
        let w := (Watch.ofSession s₀ false).takeAll turns
        (w.IsOver → w.output.toList = shown ∧ w.ending? = some (.ok [goingOn]) ∧
          w.session.source.calls = before.length + 1 ∧
          (source.exchanges client appId w.session.source.calls service).1.served = asked) ∧
        (2 * (before.length + 1) ≤ turns.count .move → w.look.IsOver)) ∧
    ∀ (scene : Scene) (arguments : List String) (line : CommandLine) (filter : LogFilter),
      scene.client = client → scene.replies = service.replies → scene.interruptAfter = none →
      CommandLine.ofArguments arguments = .ok line → line.command = .watch appId false →
      line.options.logFilter scene.surroundings = .ok filter →
      line.options.config scene.surroundings = .ok config →
      let outcome := scene.run arguments timeText
      outcome.exitCode = some 0 ∧ outcome.errors = [] ∧ outcome.output = shown ++ [goingOn] ∧
        outcome.requests = asked := by
  intro service records shown goingOn asked
  have htimeout := HttpSource.timeout_of_ofConfig hsource
  rw [← htimeout] at hlast
  simp only [← htimeout] at hbefore
  have hservice : service = { replies := before ++ last :: after } := rfl
  obtain ⟨s₀, results, hstart, hconfig, happ, hresults, hout⟩ := Session.exists_setsOut hvalid
    hclient source hurl hdirect hmarker hbefore hlast hstate hservice timeText
  have hlength : results.length = before.length := by
    simpa using congrArg List.length hresults
  have hrecords : results.filterMap FetchResult.record? ++ [a] = records := by
    have hpresent := congrArg (List.filterMap id) hresults
    rw [List.filterMap_map, List.filterMap_map] at hpresent
    refine congrArg (· ++ [a]) (hpresent.trans ?_)
    rw [htimeout]
    rfl
  have hserved : (source.exchanges client appId (before.length + 1) service).1.served = asked := by
    have hawaits : service.Awaits (before ++ [last]) := ⟨after, by simp [service]⟩
    obtain ⟨hservice, -⟩ := HttpSource.exchanges_of_awaits hclient hurl hawaits hdirect
    rw [List.length_append, List.length_singleton] at hservice
    rw [hservice]
    rfl
  refine ⟨⟨s₀, hstart, ?_⟩, ?_⟩
  · intro turns hattended w
    refine ⟨?_, ?_⟩
    · intro hover
      obtain ⟨houtput, hending, hcalls⟩ := hout.concludes hattended hover
      rw [happ, hconfig, hrecords] at houtput
      rw [happ] at hending
      rw [hlength] at hcalls
      refine ⟨houtput, hending, hcalls, ?_⟩
      rw [hcalls, hserved]
    · intro hcount
      have hsession := (Watch.ofSession s₀ false).takeAll_session turns
      change w.session = s₀.play _ at hsession
      rw [← hlength] at hcount
      apply hout.look_over hattended
      change w.session.Arrived
      rw [hsession]
      exact (hout.course _).arrived_of_count hcount
  · intro scene arguments line filter hsame hreplies hpatient harguments hcommand hfilter hset outcome
    obtain ⟨assignment, hrun⟩ :=
      run_of_watch harguments hcommand hfilter hset hsource timeText
    have hconcludes : (scene.follow source (.ofSession s₀ false)).Concludes s₀ records
        (before.length + 1) := by
      rw [follow_of_patient hpatient, ← hrecords, ← hlength]
      apply hout.concludes_runWhile
      have hmono := Nat.mul_le_mul_right (s₀.plan.restMs + source.timeout.ceilMillis)
        (show before.length + 1 ≤ service.replies.length + 1 by simp [service])
      rw [hreplies, hlength]
      exact Nat.lt_succ_of_le hmono
    have hscene : scene.service = service := by
      unfold Scene.service
      rw [hreplies]
    rw [← hsame, ← hscene] at hstart hserved
    have houtcome := watch_of_concludes assignment hstart hconcludes
    rw [happ, hconfig, hserved, ← hrun] at houtcome
    exact houtcome

/-- A failure between two records: one block for each record, and the end after three
requests. -/
theorem watch_prints_two_records_and_the_end :
    let reply (state : String) : HttpReply :=
      .ofText (Application.reporting "a1" "environment_vars" state).toJson.text
    let failure : HttpReply := { status := ⟨503, by decide⟩, bodiless := nofun }
    let scene : Scene :=
      { surroundings := { valueOf := fun _ => none, contentOf := fun _ => none }
        replies := [reply "uploading", failure, reply "finished", reply "creating"] }
    let outcome := scene.run ["watch", "a1", "--log-level", "2"] fun _ => ""
    outcome.exitCode = some 0 ∧ outcome.requests.length = 3 ∧
      outcome.output =
        ["Tracking /app/provision/a1",
          "-- state: uploading (fetch #1)", "[x] creating", "[>] uploading",
          "[ ] provision_cloudera", "[ ] provision_db", "[ ] bind_services",
          "[ ] restarting_atk", "[ ] create_user",
          "-- state: finished (fetch #2)", "[x] creating", "[x] uploading",
          "[x] provision_cloudera", "[x] provision_db", "[x] bind_services",
          "[x] restarting_atk", "[x] create_user",
          "Provisioning finished, continue at /app/view/a1"] := by
  intro reply failure scene outcome
  have hread : ∀ state limit, (reply state).record? limit =
      some (.reporting "a1" "environment_vars" state) := by
    intro state limit
    rw [HttpReply.record?_ofText]
    rfl
  have hfailed : ∀ limit, failure.record? limit = none := by
    intro limit
    simp [HttpReply.record?, failure, HttpStatus.isSuccess]
  let options : CommonOptions := { logLevel := some "2" }
  have harguments : CommandLine.ofArguments ["watch", "a1", "--log-level", "2"] =
      .ok ⟨options, .watch "a1" false⟩ := by
    rfl
  obtain ⟨filter, hfilter⟩ : ∃ filter, options.logFilter scene.surroundings = .ok filter :=
    ⟨_, rfl⟩
  have hvalid := Config.fault?_of_validate Config.standard_validate
  have hset : options.config scene.surroundings = .ok .standard :=
    CommonOptions.config_of_bare rfl hvalid (ConfigLayer.cover_nothing _) hvalid
  have hother : ∀ r ∈ [reply "uploading", failure], ∀ a,
      r.record? Config.standard.timeout = some a → a.state Config.standard ≠ some "finished" := by
    intro r hr a ha
    simp only [List.mem_cons, List.not_mem_nil, or_false] at hr
    rcases hr with rfl | rfl
    · rw [hread "uploading"] at ha
      rw [← Option.some.inj ha]
      decide
    · rw [hfailed] at ha
      cases ha
  have hdirect : ∀ r ∈ [reply "uploading", failure] ++ [reply "finished"], r.isRedirect = false := by
    simp [reply, failure, HttpReply.ofText, HttpReply.isRedirect]
  obtain ⟨-, hlaw⟩ := watch_prints_each_record_and_the_end HttpClient.direct_lawful
    Config.standard_validate HttpSource.ofConfig_standard "a1" (by decide)
    [reply "uploading", failure] [reply "creating"] (reply "finished") hdirect rfl hother
    (hread "finished" _) rfl fun _ => ""
  obtain ⟨hexit, -, houtput, hrequests⟩ :=
    hlaw scene ["watch", "a1", "--log-level", "2"] _ filter rfl rfl rfl harguments rfl hfilter hset
  change outcome.output = _ at houtput
  change outcome.requests = _ at hrequests
  have hrecords : ∀ limit, List.filterMap (fun r => HttpReply.record? r limit)
      [reply "uploading", failure] =
        [.reporting "a1" "environment_vars" "uploading"] := by
    intro limit
    let f (r : HttpReply) := r.record? limit
    have huploading : f (reply "uploading") = some (.reporting "a1" "environment_vars" "uploading") :=
      hread "uploading" limit
    have hnone : f failure = none := hfailed limit
    change List.filterMap f _ = _
    rw [List.filterMap_cons_some huploading, List.filterMap_cons_none hnone, List.filterMap_nil]
  refine ⟨hexit, ?_, ?_⟩
  · rw [hrequests, List.length_replicate]
    rfl
  · rw [houtput, hrecords]
    rfl

/-- A terminal record is ready, but nothing asks for it: over FTP no request can be made, and
with a line break in the name of the user agent there is no source at all. -/
theorem watch_may_ask_for_nothing :
    let reply : HttpReply :=
      .ofText (Application.reporting "a1" "environment_vars" "finished").toJson.text
    let file := (Json.Value.object [("user_agent", .string "a\nb")]).text
    let scene : Scene :=
      { surroundings :=
          { valueOf := fun _ => none
            contentOf := fun _ => some (utf8Bytes file) }
        replies := [reply] }
    let overFtp :=
      scene.run ["watch", "a1", "--base-url", "ftp://localhost:8080", "--log-level", "2"] fun _ => ""
    let broken := scene.run ["watch", "a1", "--config", "c.json", "--log-level", "2"] fun _ => ""
    (∀ limit, reply.record? limit = some (.reporting "a1" "environment_vars" "finished")) ∧
      (∃ source, HttpSource.ofConfig Config.standard = .ok source) ∧
      (∃ source, HttpSource.ofConfig { Config.standard with baseUrl := "ftp://localhost:8080" } =
        .ok source) ∧
      overFtp.requests = [] ∧ broken.exitCode = some 1 ∧ broken.output = [] ∧
      broken.requests = [] := by
  intro reply file scene overFtp broken
  have hread : ∀ limit, reply.record? limit =
      some (.reporting "a1" "environment_vars" "finished") := by
    intro limit
    rw [HttpReply.record?_ofText]
    rfl
  refine ⟨hread, ⟨_, HttpSource.ofConfig_standard⟩, ⟨_, HttpSource.ofConfig_overFtp⟩, ?_, ?_⟩
  · let options : CommonOptions := { baseUrl := some "ftp://localhost:8080", logLevel := some "2" }
    have hset : options.config scene.surroundings =
        .ok { Config.standard with baseUrl := "ftp://localhost:8080" } :=
      CommonOptions.config_of_bare rfl (Config.fault?_of_validate Config.standard_validate)
        (ConfigLayer.cover_baseUrl _ _) (by decide +kernel)
    have harguments : CommandLine.ofArguments
        ["watch", "a1", "--base-url", "ftp://localhost:8080", "--log-level", "2"] =
          .ok ⟨options, .watch "a1" false⟩ := rfl
    obtain ⟨filter, hfilter⟩ : ∃ filter, options.logFilter scene.surroundings = .ok filter :=
      ⟨_, rfl⟩
    obtain ⟨a, hrun⟩ :=
      run_of_watch harguments rfl hfilter hset HttpSource.ofConfig_overFtp fun _ => ""
    change (scene.run _ _).requests = []
    rw [hrun]
    exact requests_of_unrequestable HttpClient.direct_lawful (by decide) a _ _ _
  · let options : CommonOptions := { configPath := some "c.json", logLevel := some "2" }
    let named : Config := { Config.standard with userAgent := "a\nb" }
    have hvalid : named.fault? = none := by decide +kernel
    have hset : options.config scene.surroundings = .ok named := by
      have hbase : options.StartsFrom scene.surroundings named := by
        refine ⟨file, ?_, ?_, hvalid⟩
        · change fileText (some (utf8Bytes file)) = _
          unfold fileText
          dsimp only
          rw [Utf8.strict_utf8Bytes]
        · rw [Config.ofDocument, Json.Document.decode_text]
          rfl
      exact CommonOptions.config_of_bare hbase hvalid (ConfigLayer.cover_nothing _) hvalid
    have harguments : CommandLine.ofArguments
        ["watch", "a1", "--config", "c.json", "--log-level", "2"] =
          .ok ⟨options, .watch "a1" false⟩ := rfl
    obtain ⟨filter, hfilter⟩ : ∃ filter, options.logFilter scene.surroundings = .ok filter :=
      ⟨_, rfl⟩
    have hbroken : broken = ({} : CommandOutcome).failing
        ⟨"invalid API URL", ["Invalid http client: builder error"]⟩ :=
      run_of_refusal harguments rfl hfilter hset (HttpSource.ofConfig_of_brokenAgent (by decide))
        fun _ => ""
    rw [hbroken]
    exact ⟨rfl, rfl, rfl⟩

end Scene

end Provisioning
