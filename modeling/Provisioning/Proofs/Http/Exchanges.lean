-- Exchanges in turn. A service has its replies ready in order, and each exchange with a client to
-- rely on takes up one of them: one request goes out, and the record that comes of it is the one
-- that the reply brings, if any.
import Provisioning.Proofs.Http.Answers
import Provisioning.Proofs.Json.Reread
import Provisioning.Proofs.Session.Rounds

namespace Provisioning

/-! ## Replies -/

namespace HttpReply

/-- The record that a reply brings if it is a complete success: it comes in time, with a
status of success and a whole body that reads as a record. -/
def record? (r : HttpReply) (limit : Duration) : Option Application :=
  if r.arrives limit && r.status.isSuccess && r.isWhole limit then
    (Application.ofDocument (.ofBytes r.body)).toOption
  else none

/-- A success whose body is a text, in whole and at once. -/
def ofText (text : String) : HttpReply := { body := utf8Bytes text }

/-- The text of a value brings the record that the value is. -/
theorem record?_ofText (v : Json.Value) (limit : Duration) :
    (ofText v.text).record? limit = (Application.ofNode Json.depthLimit v.node).toOption := by
  have hbytes : Json.Document.ofBytes (ofText v.text).body = .ofString v.text :=
    Json.Document.ofBytes_utf8Bytes v.text
  have hsuccess : (ofText v.text).status.isSuccess = true := rfl
  unfold record?
  rw [arrives_of_now rfl rfl, isWhole_of_now rfl rfl, hsuccess, hbytes, Application.ofDocument,
    Json.Document.decode_text]
  rfl

end HttpReply

theorem FetchResult.record?_eq_some_iff {result : FetchResult} {a : Application} :
    result.record? = some a ↔ result = .ok a := by
  cases result <;> simp [record?]

/-! ## What a service has ready -/

namespace HttpService

/-- The replies that a service gives next. -/
def Awaits (service : HttpService) (replies : List HttpReply) : Prop :=
  replies <+: service.replies.drop service.served.length

variable {service : HttpService}

theorem Awaits.reply {r : HttpReply} {later : List HttpReply} (h : service.Awaits (r :: later)) :
    service.reply = r := by
  obtain ⟨rest, hrest⟩ := h
  have hnext : service.replies[service.served.length]? = some r := by
    rw [← List.head?_drop, ← hrest]
    rfl
  have hlt := (List.getElem?_eq_some_iff.mp hnext).1
  unfold HttpService.reply
  rw [Nat.min_eq_left (by omega), hnext]
  rfl

/-- Each request takes up one reply. -/
theorem Awaits.later {first later : List HttpReply} (h : service.Awaits (first ++ later))
    {requests : List HttpRequest} (hlength : requests.length = first.length) :
    ({ service with served := service.served ++ requests } : HttpService).Awaits later := by
  obtain ⟨rest, hrest⟩ := h
  refine ⟨rest, ?_⟩
  change _ = service.replies.drop (service.served ++ requests).length
  rw [List.length_append, hlength, ← List.drop_drop, ← hrest, List.append_assoc, List.drop_left]

end HttpService

/-! ## Exchanges in turn -/

namespace HttpSource

/-- What exchanges about one application say, one by one. -/
def results (s : HttpSource) (client : HttpClient) (appId : String) (n : Nat)
    (service : HttpService) : List FetchResult :=
  (s.exchanges client appId n service).2.map fun e =>
    read (s.recordUrl appId) Application.ofDocument e.response

section
variable (s : HttpSource) (client : HttpClient) (appId : String)

theorem exchanges_succ (n : Nat) (service : HttpService) :
    s.exchanges client appId (n + 1) service =
      let sent := client.send (s.query (s.recordUrl appId)) service
      let later := s.exchanges client appId n sent.1
      (later.1, sent.2 :: later.2) := rfl

theorem exchanges_add (m n : Nat) (service : HttpService) :
    s.exchanges client appId (m + n) service =
      let first := s.exchanges client appId m service
      let later := s.exchanges client appId n first.1
      (later.1, first.2 ++ later.2) := by
  induction m generalizing service with
  | zero =>
    rw [Nat.zero_add]
    rfl
  | succ m ih =>
    rw [Nat.succ_add, exchanges_succ]
    dsimp only
    rw [ih]
    rfl

theorem results_add (m n : Nat) (service : HttpService) :
    s.results client appId (m + n) service =
      s.results client appId m service ++
        s.results client appId n (s.exchanges client appId m service).1 := by
  unfold results
  rw [exchanges_add, List.map_append]

end

section
variable {s : HttpSource} {client : HttpClient} {appId : String} (hclient : client.Lawful)
include hclient

theorem tookMs_of_exchanges {n : Nat} {service : HttpService} :
    ∀ e ∈ (s.exchanges client appId n service).2, e.tookMs ≤ s.timeout.ceilMillis := by
  induction n generalizing service with
  | zero => exact fun _ he => absurd he List.not_mem_nil
  | succ n ih =>
    intro e he
    rcases List.mem_cons.mp he with rfl | he
    · exact hclient.inTime (s.query (s.recordUrl appId)) service
    · exact ih e he

/-- A script of exchanges takes no longer for any of them than the time limit. -/
theorem scripted_quick (service : HttpService) :
    (s.scripted client service appId).Quick s.timeout.ceilMillis where
  calm := rfl
  latency := by
    intro n
    unfold scripted
    dsimp only
    cases he : (s.exchanges client appId (max 1 service.replies.length) service).2[
        min (n - 1) ((s.exchanges client appId (max 1 service.replies.length) service).2.length - 1)]?
      with
    | none => exact Nat.zero_le _
    | some e => exact tookMs_of_exchanges hclient e (List.mem_of_getElem? he)

/-- Where no request can be made, none goes out. -/
theorem exchanges_of_unrequestable (hurl : (s.recordUrl appId).isRequestable = false) (n : Nat)
    (service : HttpService) : (s.exchanges client appId n service).1 = service := by
  induction n generalizing service with
  | zero => rfl
  | succ n ih =>
    rw [exchanges_succ]
    dsimp only
    rw [ih]
    exact (hclient.refuses (s.query (s.recordUrl appId)) service hurl).1

variable (hurl : (s.recordUrl appId).isRequestable = true)
include hurl

/-- What an exchange says holds the record of the reply, and no other. -/
theorem record?_of_send {service : HttpService} (hdirect : service.reply.isRedirect = false) :
    FetchResult.record? (read (s.recordUrl appId) Application.ofDocument
        (client.send (s.query (s.recordUrl appId)) service).2.response) =
      service.reply.record? s.timeout := by
  unfold HttpReply.record?
  cases harrives : service.reply.arrives s.timeout with
  | false =>
    obtain ⟨reason, hresponse⟩ :=
      hclient.loses (s.query (s.recordUrl appId)) service hurl hdirect harrives
    rw [hresponse]
    rfl
  | true =>
    obtain ⟨response, hresponse, hrenders⟩ :=
      hclient.answers (s.query (s.recordUrl appId)) service hurl hdirect harrives
    rw [hresponse, ← hrenders.status]
    cases hsuccess : response.status.isSuccess with
    | false =>
      rw [read_refused (by simp [hsuccess])]
      rfl
    | true =>
      cases hwhole : service.reply.isWhole s.timeout with
      | false =>
        obtain ⟨⟨reason, hbytes⟩, -⟩ := hrenders.broken hwhole
        rw [read_brokenOff hsuccess hbytes]
        rfl
      | true =>
        rw [read_whole hsuccess (hrenders.whole hwhole).1]
        cases Application.ofDocument (.ofBytes service.reply.body) <;> rfl

/-- Exchanges take up the replies that are ready, one request for each, and bring their
records. -/
theorem exchanges_of_awaits {replies : List HttpReply} {service : HttpService}
    (h : service.Awaits replies) (hdirect : ∀ r ∈ replies, r.isRedirect = false) :
    (s.exchanges client appId replies.length service).1 =
        { service with
          served := service.served ++
            List.replicate replies.length (s.request (s.recordUrl appId)) } ∧
      (s.results client appId replies.length service).map FetchResult.record? =
        replies.map (·.record? s.timeout) := by
  induction replies generalizing service with
  | nil => exact ⟨by simp [exchanges], rfl⟩
  | cons r replies ih =>
    obtain ⟨hfirst, hrest⟩ := List.forall_mem_cons.mp hdirect
    rw [← h.reply] at hfirst
    have hasked := hclient.asks (s.query (s.recordUrl appId)) service hurl hfirst
    have hready : service.Awaits ([r] ++ replies) := h
    have hlater : (service.serve (s.query (s.recordUrl appId)).request).1.Awaits replies :=
      hready.later rfl
    obtain ⟨hserved, hrecords⟩ := ih hlater hrest
    unfold results at hrecords ⊢
    rw [List.length_cons, exchanges_succ]
    dsimp only
    rw [hasked]
    constructor
    · refine hserved.trans ?_
      rw [List.replicate_succ, ← List.singleton_append, ← List.append_assoc]
      rfl
    · rw [List.map_cons, List.map_cons, List.map_cons, record?_of_send hclient hurl hfirst, h.reply]
      exact congrArg _ hrecords

/-- With the replies up to a record ready, the script has what they say and then the record,
whatever comes later. -/
theorem scripted_script {before after : List HttpReply} {last : HttpReply} {a : Application}
    (hdirect : ∀ r ∈ before ++ [last], r.isRedirect = false)
    (hlast : last.record? s.timeout = some a) :
    let service : HttpService := { replies := before ++ last :: after }
    ∃ later, (s.scripted client service appId).script =
      s.results client appId before.length service ++ .ok a :: later := by
  intro service
  have hawaits : service.Awaits (before ++ [last]) := ⟨after, by simp [service]⟩
  have hbefore : service.Awaits before := ⟨last :: after, rfl⟩
  obtain ⟨hserved, -⟩ := exchanges_of_awaits hclient hurl hbefore
    fun r hr => hdirect r (List.mem_append_left _ hr)
  have hlater : (s.exchanges client appId before.length service).1.reply = last := by
    rw [hserved]
    exact (hawaits.later (List.length_replicate ..)).reply
  have hcount : max 1 service.replies.length = before.length + (after.length + 1) := by
    simp only [service, List.length_append, List.length_cons]
    omega
  have hdirectLast : (s.exchanges client appId before.length service).1.reply.isRedirect = false := by
    rw [hlater]
    exact hdirect last (by simp)
  let sent := client.send (s.query (s.recordUrl appId))
    (s.exchanges client appId before.length service).1
  have hrecord : read (s.recordUrl appId) Application.ofDocument sent.2.response = .ok a := by
    rw [← FetchResult.record?_eq_some_iff, record?_of_send hclient hurl hdirectLast, hlater, hlast]
  refine ⟨s.results client appId after.length sent.1, ?_⟩
  change s.results client appId (max 1 service.replies.length) service = _
  rw [hcount, results_add, ← hrecord]
  rfl

end

end HttpSource

end Provisioning
