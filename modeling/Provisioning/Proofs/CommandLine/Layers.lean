-- The configuration of a command in its three layers: the file or the standard one, over
-- that the environment, and over both the options. Each layer is checked before the next,
-- and a scheme brings all that it stands for along.
import Provisioning.CommandLine.Settings
import Provisioning.Config.Basic
import Provisioning.Proofs.Outcome

namespace Provisioning

/-! ## One layer -/

/-- What a layer sets. -/
structure ConfigLayer where
  scheme : Option Scheme := none
  baseUrl : Option String := none
  interval : Option Duration := none

/-- The settings that a scheme brings together: the metadata key, the terminal marker and
the table. -/
def Scheme.reporting (s : Scheme) : String × Option String × StageTable :=
  (s.metadataKey, s.terminalMarker, provisioningTable)

/-- The same settings of a configuration. -/
def Config.reporting (c : Config) : String × Option String × StageTable :=
  (c.metadataKey, c.terminalMarker, c.stages)

namespace ConfigLayer

/-- A configuration that a layer covers. -/
def cover (l : ConfigLayer) (c : Config) : Config :=
  let reporting := (l.scheme.map Scheme.reporting).getD c.reporting
  { c with
    baseUrl := l.baseUrl.getD c.baseUrl
    pollIntervalSeconds := (l.interval.map Duration.toSecondsDouble).getD c.pollIntervalSeconds
    metadataKey := reporting.1
    terminalMarker := reporting.2.1
    stages := reporting.2.2 }

/-- A layer and the one below it as one. -/
def above (upper lower : ConfigLayer) : ConfigLayer where
  scheme := upper.scheme.or lower.scheme
  baseUrl := upper.baseUrl.or lower.baseUrl
  interval := upper.interval.or lower.interval

/-- In every setting the upper layer comes first, and then the lower one. -/
theorem cover_cover (upper lower : ConfigLayer) (c : Config) :
    upper.cover (lower.cover c) = (upper.above lower).cover c := by
  obtain ⟨scheme, baseUrl, interval⟩ := upper
  cases scheme <;> cases baseUrl <;> cases interval <;> rfl

theorem cover_nothing (c : Config) : cover {} c = c := rfl

theorem cover_baseUrl (url : Option String) (c : Config) :
    cover { baseUrl := url } c = { c with baseUrl := url.getD c.baseUrl } := rfl

theorem cover_interval (d : Duration) (c : Config) :
    cover { interval := some d } c = c.withPollInterval d := by
  rw [cover, Option.map_some, Option.getD_some]
  rfl

/-- Setting one thing after the other is one layer. -/
theorem cover_each (scheme : Option Scheme) (url : Option String) (interval : Option Duration)
    (c : Config) :
    cover { interval := interval } (cover { baseUrl := url } (cover { scheme := scheme } c)) =
      cover ⟨scheme, url, interval⟩ c := by
  simp only [cover_cover, above, Option.none_or, Option.or_none]

end ConfigLayer

/-! ## The options as a layer -/

namespace CommonOptions

def layer (o : CommonOptions) : ConfigLayer := ⟨o.scheme, o.baseUrl, o.pollInterval⟩

theorem overrides_eq (o : CommonOptions) (c : Config) : o.overrides c = o.layer.cover c := by
  obtain ⟨_, baseUrl, scheme, interval, _, _⟩ := o
  unfold overrides layer ConfigLayer.cover
  cases interval with
  | none => cases scheme <;> rfl
  | some d =>
    rw [Option.map_some, Option.getD_some]
    cases scheme <;> rfl

end CommonOptions

/-! ## The environment as a layer -/

/-- The texts in the environment that are set say what the layer sets. -/
structure Environment.Says (e : Environment) (l : ConfigLayer) : Prop where
  scheme : ReadsAs Scheme.ofText e.scheme l.scheme
  baseUrl : e.apiUrl = l.baseUrl
  interval : ReadsAs Duration.ofInterval e.pollInterval l.interval

namespace Config

theorem withSchemeText_eq_ok_iff {c d : Config} {text : Option String} :
    c.withSchemeText text = .ok d ↔
      ∃ scheme, ReadsAs Scheme.ofText text scheme ∧ ConfigLayer.cover { scheme := scheme } c = d := by
  cases text with
  | none => simp [withSchemeText, readsAs_none_iff, ConfigLayer.cover_nothing]
  | some text =>
    simp only [withSchemeText, map_eq_ok_iff, readsAs_some_iff]
    constructor
    · rintro ⟨scheme, hread, rfl⟩
      exact ⟨some scheme, ⟨scheme, hread, rfl⟩, rfl⟩
    · rintro ⟨_, ⟨scheme, hread, rfl⟩, rfl⟩
      exact ⟨scheme, hread, rfl⟩

theorem withIntervalText_eq_ok_iff {c d : Config} {text : Option String} :
    c.withIntervalText text = .ok d ↔
      ∃ interval, ReadsAs Duration.ofInterval text interval ∧
        ConfigLayer.cover { interval := interval } c = d := by
  cases text with
  | none => simp [withIntervalText, readsAs_none_iff, ConfigLayer.cover_nothing]
  | some text =>
    simp only [withIntervalText, readsAs_some_iff]
    constructor
    · intro h
      split at h
      · next d hread => exact ⟨_, ⟨d, hread, rfl⟩, by rw [ConfigLayer.cover_interval, Except.ok.inj h]⟩
      · cases h
    · rintro ⟨_, ⟨interval, hread, rfl⟩, rfl⟩
      rw [hread, ConfigLayer.cover_interval]

/-- The environment makes one layer, and what comes out is checked. -/
theorem withEnvironment_eq_ok_iff {c d : Config} {e : Environment} :
    c.withEnvironment e = .ok d ↔
      ∃ l : ConfigLayer, e.Says l ∧ (l.cover c).fault? = none ∧ l.cover c = d := by
  simp only [withEnvironment, bind_eq_ok_iff, withSchemeText_eq_ok_iff,
    withIntervalText_eq_ok_iff, validate_eq_ok_iff, ← ConfigLayer.cover_baseUrl]
  constructor
  · rintro ⟨_, ⟨scheme, hscheme, rfl⟩, _, ⟨interval, hinterval, rfl⟩, hvalid, rfl⟩
    rw [ConfigLayer.cover_each] at hvalid ⊢
    exact ⟨_, ⟨hscheme, rfl, hinterval⟩, hvalid, rfl⟩
  · rintro ⟨⟨scheme, baseUrl, interval⟩, ⟨hscheme, hbaseUrl, hinterval⟩, hvalid, rfl⟩
    refine ⟨_, ⟨scheme, hscheme, rfl⟩, _, ⟨interval, hinterval, rfl⟩, ?_⟩
    rw [hbaseUrl, ConfigLayer.cover_each]
    exact ⟨hvalid, rfl⟩

end Config

/-! ## The configuration below the layers -/

namespace Config

theorem ofText_eq_ok_iff {text : String} {c : Config} :
    ofText text = .ok c ↔ ofDocument (.ofString text) = .ok c ∧ c.fault? = none := by
  unfold ofText
  cases ofDocument (.ofString text) with
  | error fault => simp
  | ok config =>
    simp only [validate_eq_ok_iff, Except.ok.injEq]
    constructor
    · rintro ⟨hvalid, rfl⟩
      exact ⟨rfl, hvalid⟩
    · rintro ⟨rfl, hvalid⟩
      exact ⟨hvalid, rfl⟩

theorem ofFile_eq_ok_iff {content : Option (List UInt8)} {c : Config} :
    ofFile content = .ok c ↔ ∃ text, fileText content = .ok text ∧ ofText text = .ok c := by
  unfold ofFile
  cases fileText content with
  | error fault => simp
  | ok text => cases hread : ofText text <;> simp [hread]

end Config

namespace CommonOptions

/-- The configuration that the layers are over: the standard one, or the one of the file,
which can be read and is valid. -/
def StartsFrom (o : CommonOptions) (s : Surroundings) (base : Config) : Prop :=
  match o.configPath with
  | none => base = .standard
  | some path => ∃ text, fileText (s.contentOf path) = .ok text ∧
      Config.ofDocument (.ofString text) = .ok base ∧ base.fault? = none

theorem baseConfig_eq_ok_iff {o : CommonOptions} {s : Surroundings} {base : Config} :
    o.baseConfig s = .ok base ↔ o.StartsFrom s base := by
  unfold baseConfig StartsFrom
  cases o.configPath with
  | none => simp [eq_comm]
  | some path =>
    dsimp only
    simp only [← Config.ofText_eq_ok_iff, ← Config.ofFile_eq_ok_iff]
    cases Config.ofFile (s.contentOf path) <;> simp

theorem config_eq_ok_iff {o : CommonOptions} {s : Surroundings} {c : Config} :
    o.config s = .ok c ↔ ∃ base l, o.StartsFrom s base ∧ (Environment.ofLookup s.valueOf).Says l ∧
      (l.cover base).fault? = none ∧ (o.layer.cover (l.cover base)).fault? = none ∧
      o.layer.cover (l.cover base) = c := by
  unfold config
  rw [bind_eq_ok_iff]
  simp only [baseConfig_eq_ok_iff, ← overrides_eq]
  constructor
  · rintro ⟨base, hbase, h⟩
    split at h
    case h_2 => cases h
    case h_1 layered hlayered =>
      obtain ⟨l, hsays, hlower, rfl⟩ := Config.withEnvironment_eq_ok_iff.mp hlayered
      dsimp only [bind, Except.bind] at h
      split at h
      case h_2 => cases h
      case h_1 config hconfig =>
        cases h
        obtain ⟨hupper, heq⟩ := Config.validate_eq_ok_iff.mp hconfig
        exact ⟨base, l, hbase, hsays, hlower, hupper, heq.symm⟩
  · rintro ⟨base, l, hbase, hsays, hlower, hupper, rfl⟩
    refine ⟨base, hbase, ?_⟩
    rw [Config.withEnvironment_eq_ok_iff.mpr ⟨l, hsays, hlower, rfl⟩]
    dsimp only [bind, Except.bind]
    rw [Config.validate_eq_ok_iff.mpr ⟨hupper, rfl⟩]

/-! ## The law -/

/-- A configuration comes out exactly if the file can be read and is valid, the texts in the
environment can be read, and the configuration is valid with the environment and again with
the options. In each setting the option then comes first, next the environment, last the
file or the standard. A scheme has its key, its marker and its table taken together. What no
layer sets is as in the file, and the whole is valid. -/
theorem config_is_layered_and_checked (o : CommonOptions) (s : Surroundings) :
    ((∃ c, o.config s = .ok c) ↔
      ∃ base l, o.StartsFrom s base ∧ (Environment.ofLookup s.valueOf).Says l ∧
        (l.cover base).fault? = none ∧ (o.layer.cover (l.cover base)).fault? = none) ∧
    ∀ c, o.config s = .ok c →
      ∃ base l, o.StartsFrom s base ∧ (Environment.ofLookup s.valueOf).Says l ∧
        c.baseUrl =
          (o.baseUrl.or (s.valueOf Environment.apiUrlVariable)).getD base.baseUrl ∧
        c.pollIntervalSeconds =
          ((o.pollInterval.or l.interval).map Duration.toSecondsDouble).getD
            base.pollIntervalSeconds ∧
        c.reporting = ((o.scheme.or l.scheme).map Scheme.reporting).getD base.reporting ∧
        c.timeoutSeconds = base.timeoutSeconds ∧ c.userAgent = base.userAgent ∧
        c.stateField = base.stateField ∧ c.validate = .ok c := by
  constructor
  · constructor
    · rintro ⟨c, hc⟩
      obtain ⟨base, l, hbase, hsays, hlower, hupper, -⟩ := config_eq_ok_iff.mp hc
      exact ⟨base, l, hbase, hsays, hlower, hupper⟩
    · rintro ⟨base, l, hbase, hsays, hlower, hupper⟩
      exact ⟨_, config_eq_ok_iff.mpr ⟨base, l, hbase, hsays, hlower, hupper, rfl⟩⟩
  · intro c hc
    obtain ⟨base, l, hbase, hsays, -, hvalid, rfl⟩ := config_eq_ok_iff.mp hc
    refine ⟨base, l, hbase, hsays, ?_⟩
    have hurl : s.valueOf Environment.apiUrlVariable = l.baseUrl := hsays.baseUrl
    rw [hurl, Config.validate_eq_ok_iff, and_iff_left rfl]
    rw [ConfigLayer.cover_cover] at hvalid ⊢
    exact ⟨rfl, rfl, rfl, rfl, rfl, rfl, hvalid⟩

/-- A scheme among the options, with the URL and the interval from the environment. -/
theorem config_of_a_scheme_over_the_environment :
    let o : CommonOptions := { scheme := some .environmentJson }
    let s : Surroundings :=
      { valueOf := fun name =>
          if name = Environment.apiUrlVariable then some "http://launcher:9000"
          else if name = Environment.pollIntervalVariable then some "750ms"
          else none
        contentOf := fun _ => none }
    ∃ c, o.config s = .ok c ∧ c.baseUrl = "http://launcher:9000" ∧
      c.pollIntervalSeconds = Duration.toSecondsDouble ⟨750000000, by decide⟩ ∧
      c.reporting = Scheme.environmentJson.reporting := by
  intro o s
  obtain ⟨hexists, hlaw⟩ := config_is_layered_and_checked o s
  have hread : Duration.ofInterval "750ms" = .ok ⟨750000000, by decide⟩ := rfl
  have hsays : (Environment.ofLookup s.valueOf).Says
      ⟨none, some "http://launcher:9000", some ⟨750000000, by decide⟩⟩ :=
    ⟨readsAs_none_iff.mpr rfl, rfl, readsAs_some_iff.mpr ⟨_, hread, rfl⟩⟩
  obtain ⟨c, hc⟩ := hexists.mpr
    ⟨.standard, _, rfl, hsays, by decide +kernel, by decide +kernel⟩
  obtain ⟨base, l, hbase, hsays', hurl, hinterval, hreporting, -⟩ := hlaw c hc
  refine ⟨c, hc, hurl, ?_, hreporting⟩
  obtain ⟨_, hread', hl⟩ := readsAs_some_iff.mp hsays'.interval
  cases hread.symm.trans hread'
  rw [hinterval, hl, Option.none_or, Option.map_some, Option.getD_some]

end CommonOptions

end Provisioning
