-- What is relied on of an HTTP client: one request for a query, and a response that holds what
-- has come of the reply in time.
import Provisioning.Http.Client

namespace Provisioning

namespace HttpClient

/-- Does a response hold what has come of a reply? The body is there, as bytes and as text, once
it has come in whole and in time. -/
structure Renders (c : HttpClient) (limit : Duration) (reply : HttpReply) (response : HttpResponse) :
    Prop where
  status : response.status = reply.status
  whole : reply.isWhole limit = true →
    response.bytes = .ok reply.body ∧ response.text = .ok (reply.text c.decoder)
  broken : reply.isWhole limit = false →
    (∃ reason, response.bytes = .error reason) ∧ ∃ reason, response.text = .error reason

/-- What is relied on of a client. Where it follows a reply to another place, nothing is. -/
structure Lawful (c : HttpClient) : Prop where
  /-- Where no request can be made, none goes out. -/
  refuses : ∀ q service, q.url.isRequestable = false →
    (c.send q service).1 = service ∧ ∃ reason, (c.send q service).2.response = .error reason
  /-- One request goes out, unless the reply leads on. -/
  asks : ∀ q service, q.url.isRequestable = true → service.reply.isRedirect = false →
    (c.send q service).1 = (service.serve q.request).1
  /-- No response comes of a head that does not arrive in time. -/
  loses : ∀ q service, q.url.isRequestable = true → service.reply.isRedirect = false →
    service.reply.arrives q.limit = false → ∃ reason, (c.send q service).2.response = .error reason
  /-- A head that arrives in time makes a response. -/
  answers : ∀ q service, q.url.isRequestable = true → service.reply.isRedirect = false →
    service.reply.arrives q.limit = true →
    ∃ response, (c.send q service).2.response = .ok response ∧
      c.Renders q.limit service.reply response
  /-- The limit is for all of it, wherever it leads. -/
  inTime : ∀ q service, (c.send q service).2.tookMs ≤ q.limit.ceilMillis
  utf8 : c.decoder "utf-8" = Utf8.lenient

/-- A body that begins with no mark is UTF-8 where the head says so, or nothing. -/
theorem Lawful.text_of_utf8 {c : HttpClient} (h : c.Lawful) {r : HttpReply}
    (hmark : textBehindMark? r.body = none)
    (hcharset : r.charset = none ∨ r.charset = some "utf-8") :
    r.text c.decoder = Utf8.lenient r.body := by
  unfold HttpReply.text
  rw [hmark]
  rcases hcharset with hcharset | hcharset
  · rw [hcharset]
  · rw [hcharset, ← h.utf8]

/-- A client that follows no redirects is one to rely on. -/
theorem direct_lawful : direct.Lawful where
  refuses := by
    intro q service hurl
    simp [direct, hurl]
  asks := by
    intro q service hurl _
    simp [direct, hurl]
  loses := by
    intro q service hurl _ hlost
    have hresponse : (direct.send q service).2.response =
        (service.reply.exchange q.limit).response := by
      simp [direct, hurl, HttpService.serve]
    rw [hresponse, HttpReply.exchange]
    dsimp only
    split
    · exact ⟨_, rfl⟩
    · rw [if_neg (by simp [hlost])]
      exact ⟨_, rfl⟩
  answers := by
    intro q service hurl _ harrives
    have hrefused : service.reply.isRefused = false := by
      unfold HttpReply.arrives at harrives
      simp only [Bool.and_eq_true, Bool.not_eq_true'] at harrives
      exact harrives.1
    refine ⟨service.reply.response q.limit, ?_, ?_⟩
    · simp [direct, hurl, HttpService.serve, HttpReply.exchange, hrefused, harrives]
    · constructor
      · rfl
      · intro hwhole
        simp [HttpReply.response, hwhole, direct]
      · intro hbroken
        simp [HttpReply.response, hbroken]
  inTime := by
    intro q service
    unfold direct
    dsimp only
    split
    · exact Nat.min_le_right _ _
    · exact Nat.zero_le _
  utf8 := rfl

end HttpClient

end Provisioning
