-- The data of an event. Its members are the fields of the event and the time, and together
-- with the type they tell the event.
import Provisioning.Event.Basic
import Provisioning.Proofs.Json.Members
import Provisioning.Proofs.Json.Reread

namespace Provisioning

open Json

/-! ## Members whose names are distinct -/

theorem Json.Members.find?_ofList_of_nodup {members : Members}
    (h : (members.map Prod.fst).Nodup) (name : String) :
    find? (ofList members) name = find? members name := by
  rw [find?_ofList]
  induction members with
  | nil => rfl
  | cons m members ih =>
    obtain ⟨hnew, hnodup⟩ := List.nodup_cons.mp h
    rw [find?_cons]
    by_cases hname : m.1 = name
    · have hnone : members.filter (fun n => n.1 = name) = [] := by
        rw [List.filter_eq_nil_iff]
        intro n hn hsame
        apply hnew
        rw [hname, ← of_decide_eq_true hsame]
        exact List.mem_map_of_mem hn
      simp [hname, hnone]
    · simp [hname, ih hnodup]

theorem Json.Members.find?_of_nodup {members : Members} (h : (members.map Prod.fst).Nodup)
    {name : String} {v : Value} : find? members name = some v ↔ (name, v) ∈ members := by
  induction members with
  | nil => simp [find?]
  | cons m members ih =>
    obtain ⟨hnew, hnodup⟩ := List.nodup_cons.mp h
    rw [find?_cons, List.mem_cons]
    split
    · rename_i hname
      subst hname
      have hother : (m.1, v) ∉ members := by
        intro hmem
        exact hnew (List.mem_map.mpr ⟨_, hmem, rfl⟩)
      simp only [hother, or_false, Option.some.injEq]
      constructor
      · rintro rfl
        rfl
      · rintro hm
        rw [← hm]
    · rename_i hname
      rw [ih hnodup]
      constructor
      · exact .inr
      · intro hmem
        apply hmem.resolve_left
        rintro rfl
        exact hname rfl

theorem Json.Members.Sorted.nodup {members : Members} (h : members.Sorted) :
    (members.map Prod.fst).Nodup := by
  rw [List.nodup_iff_pairwise_ne, List.pairwise_map]
  refine h.imp ?_
  intro m n hless heq
  exact String.lt_irrefl _ (heq ▸ hless)

namespace Event

/-! ## Fields -/

/-- The application that an event is about. -/
def appId : Event → String
  | started _ appId => appId
  | fetched appId _ _ _ => appId
  | failed appId _ _ _ => appId
  | unknownStage appId _ => appId
  | terminal appId _ => appId
  | cancelled appId _ => appId

/-- How long the fetch of an event took, if it is about one that brought a record. -/
def duration? : Event → Option Double
  | fetched _ _ _ durationMs => some durationMs
  | _ => none

/-- A duration, if there is one, can be written as a number. -/
def HasFiniteDuration (e : Event) : Prop := ∀ d ∈ e.duration?, d.isFinite = true

/-- The fields of an event and what each is written as. What is absent is null, and nothing
else is. -/
inductive HasField : Event → String → Value → Prop
  | appId (e : Event) : HasField e "app_id" (.string e.appId)
  | sessionId (sessionId appId : String) :
    HasField (started sessionId appId) "session_id" (.string sessionId)
  | noState (appId : String) (level : Option Nat) (durationMs : Double) :
    HasField (fetched appId none level durationMs) "state" .null
  | state (appId state : String) (level : Option Nat) (durationMs : Double) :
    HasField (fetched appId (some state) level durationMs) "state" (.string state)
  | noLevel (appId : String) (state : Option String) (durationMs : Double) :
    HasField (fetched appId state none durationMs) "level" .null
  | level (appId : String) (state : Option String) (level : Nat) (durationMs : Double) :
    HasField (fetched appId state (some level) durationMs) "level" (.number (.integer level))
  | duration (appId : String) (state : Option String) (level : Option Nat) (x : FiniteDouble) :
    HasField (fetched appId state level (.finite x)) "duration_ms" (.number (.float x))
  | kind (appId kind error : String) (transient : Bool) :
    HasField (failed appId kind error transient) "kind" (.string kind)
  | error (appId kind error : String) (transient : Bool) :
    HasField (failed appId kind error transient) "error" (.string error)
  | transient (appId kind error : String) (transient : Bool) :
    HasField (failed appId kind error transient) "transient" (.bool transient)
  | unknownState (appId state : String) :
    HasField (unknownStage appId state) "state" (.string state)
  | route (appId route : String) : HasField (terminal appId route) "route" (.string route)
  | reason (appId reason : String) : HasField (cancelled appId reason) "reason" (.string reason)

theorem exists_finite {e : Event} (h : e.HasFiniteDuration) {d : Double} (hd : e.duration? = some d) :
    ∃ x, d = .finite x := by
  have hfinite := h d hd
  cases d with
  | finite x => exact ⟨x, rfl⟩
  | infinite negative => cases hfinite
  | nan => cases hfinite

theorem mem_fields_iff {e : Event} (h : e.HasFiniteDuration) {name : String} {v : Value} :
    (name, v) ∈ e.fields ↔ e.HasField name v := by
  constructor
  · intro hmem
    cases e
    all_goals simp only [fields, List.mem_cons, Prod.mk.injEq, List.not_mem_nil, or_false] at hmem
    case started =>
      rcases hmem with ⟨rfl, rfl⟩ | ⟨rfl, rfl⟩
      · exact .sessionId _ _
      · exact .appId _
    case fetched appId state level durationMs =>
      obtain ⟨x, rfl⟩ := exists_finite h rfl
      rcases hmem with ⟨rfl, rfl⟩ | ⟨rfl, rfl⟩ | ⟨rfl, rfl⟩ | ⟨rfl, rfl⟩
      · exact .appId _
      · cases state with
        | none => exact .noState _ _ _
        | some state => exact .state _ _ _ _
      · cases level with
        | none => exact .noLevel _ _ _
        | some level => exact .level _ _ _ _
      · exact .duration _ _ _ _
    case failed =>
      rcases hmem with ⟨rfl, rfl⟩ | ⟨rfl, rfl⟩ | ⟨rfl, rfl⟩ | ⟨rfl, rfl⟩
      · exact .appId _
      · exact .kind _ _ _ _
      · exact .error _ _ _ _
      · exact .transient _ _ _ _
    case unknownStage =>
      rcases hmem with ⟨rfl, rfl⟩ | ⟨rfl, rfl⟩
      · exact .appId _
      · exact .unknownState _ _
    case terminal =>
      rcases hmem with ⟨rfl, rfl⟩ | ⟨rfl, rfl⟩
      · exact .appId _
      · exact .route _ _
    case cancelled =>
      rcases hmem with ⟨rfl, rfl⟩ | ⟨rfl, rfl⟩
      · exact .appId _
      · exact .reason _ _
  · intro hfield
    cases hfield with
    | appId => cases e <;> simp [fields, Event.appId]
    | _ => simp [fields, Value.ofText?, Value.ofOption, Value.ofNat, Value.ofDouble]

theorem fields_nodup (e : Event) : (e.fields.map Prod.fst).Nodup := by
  cases e <;> simp [fields]

/-- No field takes the name of the tag or of the time. -/
theorem HasField.name_ne {e : Event} {name : String} {v : Value} (h : e.HasField name v) :
    name ≠ "event" ∧ name ≠ "timestamp" := by
  cases h <;> decide

/-! ## What is written -/

/-- The members are the fields of an event and one more, each once. -/
structure HasFieldsAnd (e : Event) (name : String) (value : Value) (members : Members) :
    Prop where
  distinct : (members.map Prod.fst).Nodup
  find?_iff : ∀ n v, members.find? n = some v ↔ n = name ∧ v = value ∨ e.HasField n v

theorem find?_fields_iff {e : Event} (h : e.HasFiniteDuration) {name : String} {v : Value} :
    Members.find? e.fields name = some v ↔ e.HasField name v := by
  rw [Members.find?_of_nodup e.fields_nodup, mem_fields_iff h]

/-- One member more is told from the fields by its name. -/
theorem hasFieldsAnd_of_find? {e : Event} (h : e.HasFiniteDuration) {name : String} {value : Value}
    {members : Members} (hdistinct : (members.map Prod.fst).Nodup)
    (hname : ∀ v, ¬ e.HasField name v)
    (hfind : ∀ n, Members.find? members n =
      if name = n then some value else Members.find? e.fields n) :
    e.HasFieldsAnd name value members where
  distinct := hdistinct
  find?_iff := by
    intro n v
    rw [hfind]
    split
    · rename_i hsame
      subst hsame
      simp [hname v, eq_comm]
    · rename_i hother
      rw [find?_fields_iff h]
      simp [Ne.symm hother]

theorem payload_hasFieldsAnd {e : Event} (h : e.HasFiniteDuration) (timestamp : String) :
    ∃ members, e.payload timestamp = .object members ∧
      e.HasFieldsAnd "timestamp" (.string timestamp) members := by
  refine ⟨_, rfl, hasFieldsAnd_of_find? h ?_ ?_ ?_⟩
  · exact (Members.ofList_sorted e.fields).insert.nodup
  · exact fun _ hfield => hfield.name_ne.2 rfl
  · intro n
    rw [Members.find?_insert, Members.find?_ofList_of_nodup e.fields_nodup]

theorem toJson_hasFieldsAnd {e : Event} (h : e.HasFiniteDuration) :
    ∃ members, e.toJson = .object members ∧
      e.HasFieldsAnd "event" (.string e.tag) members := by
  refine ⟨_, rfl, hasFieldsAnd_of_find? h ?_ ?_ ?_⟩
  · refine List.nodup_cons.mpr ⟨?_, e.fields_nodup⟩
    intro hmem
    obtain ⟨m, hm, hname⟩ := List.mem_map.mp hmem
    exact ((mem_fields_iff h).mp hm).name_ne.1 hname
  · exact fun _ hfield => hfield.name_ne.1 rfl
  · intro n
    exact Members.find?_cons _ _ _

theorem type_eq (e : Event) : e.type = "poll." ++ e.tag := by
  cases e <;> rfl

/-! ## What the data tells -/

theorem ofText?_injective {s t : Option String} (h : Value.ofText? s = Value.ofText? t) : s = t := by
  cases s with
  | none =>
    cases t with
    | none => rfl
    | some t => cases h
  | some s =>
    cases t with
    | none => cases h
    | some t => exact congrArg some (Value.string.inj h)

theorem ofLevel_injective {m n : Option Nat}
    (h : Value.ofOption Value.ofNat m = Value.ofOption Value.ofNat n) : m = n := by
  cases m with
  | none =>
    cases n with
    | none => rfl
    | some n => cases h
  | some m =>
    cases n with
    | none => cases h
    | some n =>
      have hnumber := Number.integer.inj (Value.number.inj h)
      exact congrArg some (Int.ofNat.inj hnumber)

/-- The type and the fields of an event tell the event. -/
theorem eq_of_fields {e other : Event} (h : e.HasFiniteDuration) (hother : other.HasFiniteDuration)
    (htype : e.type = other.type)
    (hfields : ∀ name, Members.find? e.fields name = Members.find? other.fields name) :
    e = other := by
  have happId : e.appId = other.appId := by
    have hfield := hfields "app_id"
    rw [(find?_fields_iff h).mpr (.appId e), (find?_fields_iff hother).mpr (.appId other)] at hfield
    exact Value.string.inj (Option.some.inj hfield)
  cases e
  all_goals
    cases other
    all_goals try simp [type] at htype
  case started sessionId appId sessionId' appId' =>
    have hsession : some (Value.string sessionId) = some (.string sessionId') :=
      hfields "session_id"
    cases hsession
    cases happId
    rfl
  case fetched appId state level durationMs appId' state' level' durationMs' =>
    obtain ⟨x, rfl⟩ := exists_finite h rfl
    obtain ⟨y, rfl⟩ := exists_finite hother rfl
    have hstate : some (Value.ofText? state) = some (.ofText? state') := hfields "state"
    have hlevel : some (Value.ofOption .ofNat level) = some (.ofOption .ofNat level') :=
      hfields "level"
    have hduration : some (Value.number (.float x)) = some (.number (.float y)) :=
      hfields "duration_ms"
    cases happId
    cases ofText?_injective (Option.some.inj hstate)
    cases ofLevel_injective (Option.some.inj hlevel)
    cases hduration
    rfl
  case failed appId kind error transient appId' kind' error' transient' =>
    have hkind : some (Value.string kind) = some (.string kind') := hfields "kind"
    have herror : some (Value.string error) = some (.string error') := hfields "error"
    have htransient : some (Value.bool transient) = some (.bool transient') := hfields "transient"
    cases happId
    cases hkind
    cases herror
    cases htransient
    rfl
  case unknownStage appId state appId' state' =>
    have hstate : some (Value.string state) = some (.string state') := hfields "state"
    cases happId
    cases hstate
    rfl
  case terminal appId route appId' route' =>
    have hroute : some (Value.string route) = some (.string route') := hfields "route"
    cases happId
    cases hroute
    rfl
  case cancelled appId reason appId' reason' =>
    have hreason : some (Value.string reason) = some (.string reason') := hfields "reason"
    cases happId
    cases hreason
    rfl

/-- Members that differ in the time alone are those of one event. -/
theorem HasFieldsAnd.fields_eq {e other : Event} (h : e.HasFiniteDuration)
    (hother : other.HasFiniteDuration) {v w : Value} {members others : Members}
    (hm : e.HasFieldsAnd "timestamp" v members) (ho : other.HasFieldsAnd "timestamp" w others)
    (hsame : ∀ name, name ≠ "timestamp" → Members.find? members name = Members.find? others name)
    (name : String) : Members.find? e.fields name = Members.find? other.fields name := by
  apply Option.ext
  intro x
  rw [find?_fields_iff h, find?_fields_iff hother]
  by_cases hname : name = "timestamp"
  · subst hname
    constructor
    · exact fun hfield => absurd rfl hfield.name_ne.2
    · exact fun hfield => absurd rfl hfield.name_ne.2
  · have hboth := hsame name hname
    have hleft := hm.find?_iff name x
    have hright := ho.find?_iff name x
    simp only [hname, false_and, false_or] at hleft hright
    rw [← hleft, ← hright, hboth]

theorem HasFieldsAnd.find?_event {e : Event} {v : Value} {members : Members}
    (h : e.HasFieldsAnd "timestamp" v members) : Members.find? members "event" = none := by
  rw [Option.eq_none_iff_forall_ne_some]
  intro x hx
  rcases (h.find?_iff _ _).mp hx with ⟨hname, -⟩ | hfield
  · exact absurd hname (by decide)
  · exact hfield.name_ne.1 rfl

/-- What is `null` in the data of a fetch is a state or a level that there is not. -/
theorem HasFieldsAnd.null_iff {appId : String} {state : Option String} {level : Option Nat}
    {durationMs : Double} {v : Value} {members : Members}
    (h : (fetched appId state level durationMs).HasFieldsAnd "timestamp" v members) {name : String}
    (hname : name ≠ "timestamp") :
    Members.find? members name = some .null ↔
      name = "state" ∧ state = none ∨ name = "level" ∧ level = none := by
  rw [h.find?_iff]
  constructor
  · rintro (⟨htime, -⟩ | hfield)
    · exact absurd htime hname
    · cases hfield with
      | noState => exact .inl ⟨rfl, rfl⟩
      | noLevel => exact .inr ⟨rfl, rfl⟩
  · rintro (⟨rfl, rfl⟩ | ⟨rfl, rfl⟩)
    · exact .inr (.noState _ _ _)
    · exact .inr (.noLevel _ _ _)

/-! ## The law -/

/-- The data of an event is its fields and the time, each once, without the tag that the
event by itself is written with, and the type is that tag below the name of the polls. A
state or a level is null where it is absent and nowhere else. No other event has the same
type and data that differs in the time alone. -/
theorem payload_tells_the_event {e : Event} (h : e.HasFiniteDuration) (timestamp : String) :
    ∃ members written : Members,
      e.payload timestamp = .object members ∧
      e.HasFieldsAnd "timestamp" (.string timestamp) members ∧
      Members.find? members "event" = none ∧
      e.toJson = .object written ∧
      e.HasFieldsAnd "event" (.string e.tag) written ∧
      e.type = "poll." ++ e.tag ∧
      (∀ appId state level durationMs, e = fetched appId state level durationMs →
        (Members.find? members "state" = some .null ↔ state = none) ∧
        (Members.find? members "level" = some .null ↔ level = none)) ∧
      ∀ (other : Event) (otherTime : String) (others : Members), other.HasFiniteDuration →
        other.payload otherTime = .object others → other.type = e.type →
        (∀ name, name ≠ "timestamp" → Members.find? others name = Members.find? members name) →
        other = e := by
  obtain ⟨members, hpayload, hmembers⟩ := payload_hasFieldsAnd h timestamp
  obtain ⟨written, hjson, hwritten⟩ := toJson_hasFieldsAnd h
  refine ⟨members, written, hpayload, hmembers, hmembers.find?_event, hjson, hwritten, type_eq e,
    ?_, ?_⟩
  · rintro appId state level durationMs rfl
    constructor
    · rw [hmembers.null_iff (by decide)]
      simp
    · rw [hmembers.null_iff (by decide)]
      simp
  · intro other otherTime others hother hpayload' htype hsame
    obtain ⟨_, hobject, hothers⟩ := payload_hasFieldsAnd hother otherTime
    rw [hpayload'] at hobject
    cases hobject
    exact eq_of_fields hother h htype (hothers.fields_eq hother h hmembers hsame)

/-- A fetch without a state has other data than one whose state is the empty text, at
any two times. -/
theorem payload_of_no_state_and_of_an_empty_one :
    ∃ members others : Members,
      (fetched "a1" none (some 3) (.finite twoAndAHalf)).payload "t0" = .object members ∧
      (fetched "a1" (some "") (some 3) (.finite twoAndAHalf)).payload "t1" = .object others ∧
      Members.find? members "state" = some .null ∧
      ∃ name, name ≠ "timestamp" ∧ Members.find? others name ≠ Members.find? members name := by
  have hfinite : ∀ state : Option String,
      (fetched "a1" state (some 3) (.finite twoAndAHalf)).HasFiniteDuration := by
    intro state d hd
    cases hd
    rfl
  obtain ⟨members, -, hmembers, -, -, -, -, -, habsent, htells⟩ :=
    payload_tells_the_event (hfinite none) "t0"
  obtain ⟨others, hothers, -⟩ := payload_hasFieldsAnd (hfinite (some "")) "t1"
  refine ⟨members, others, hmembers, hothers, (habsent _ _ _ _ rfl).1.mpr rfl, ?_⟩
  by_contra hsame
  push Not at hsame
  have heq := htells _ "t1" others (hfinite (some "")) hothers rfl hsame
  cases heq

end Event

end Provisioning
