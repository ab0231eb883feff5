-- What a fetch makes of a reply. One request goes out. What comes back is told apart by its
-- head, then by its status, then by whether the body is whole, and only then by what the body
-- says; each of these is the end of the fetch where it fails.
import Provisioning.Proofs.Application.Texts
import Provisioning.Proofs.Http.Client
import Provisioning.Proofs.Http.RecordUrl

namespace Provisioning

open Json

/-! ## Replies -/

namespace HttpReply

/-- The status is one of success. -/
def Succeeds (r : HttpReply) : Prop := 200 ≤ r.status.code ∧ r.status.code ≤ 299

instance (r : HttpReply) : Decidable r.Succeeds := inferInstanceAs (Decidable (_ ∧ _))

/-- The text that an error quotes: the body, or nothing of one that does not come in whole. -/
def errorText (r : HttpReply) (client : HttpClient) (limit : Duration) : String :=
  if r.isWhole limit then r.text client.decoder else ""

theorem isSuccess_iff {r : HttpReply} : r.status.isSuccess = true ↔ r.Succeeds := by
  unfold HttpStatus.isSuccess Succeeds
  rw [Bool.and_eq_true, decide_eq_true_eq, decide_eq_true_eq]
  omega

/-- What takes no time is in time. -/
theorem arrives_of_now {r : HttpReply} (hrefused : r.isRefused = false) (hnow : r.headMs = 0)
    (limit : Duration) : r.arrives limit = true := by
  simp [arrives, hrefused, hnow]

theorem isWhole_of_now {r : HttpReply} (hcut : r.isCut = false) (hnow : r.wholeMs = 0)
    (limit : Duration) : r.isWhole limit = true := by
  simp [isWhole, hcut, hnow]

end HttpReply

/-- An error's text where a response has one: that of the reply. -/
theorem HttpClient.Renders.errorText {client : HttpClient} {limit : Duration} {r : HttpReply}
    {response : HttpResponse} (h : client.Renders limit r response) :
    response.text.toOption.getD "" = r.errorText client limit := by
  unfold HttpReply.errorText
  cases hwhole : r.isWhole limit with
  | true =>
    rw [(h.whole hwhole).2]
    rfl
  | false =>
    obtain ⟨-, reason, hbroken⟩ := h.broken hwhole
    rw [hbroken]
    rfl

/-- The URL that an error names. -/
def FetchError.url : FetchError → String
  | transport url _ => url
  | status url _ _ => url
  | decode url _ => url

namespace HttpSource

/-! ## Answers -/

section
variable {α : Type}

/-- What a fetch makes of a reply when it is after a certain kind of value: `IsValue` says
which texts are one, and `Tells` what is then told of the text. -/
structure Answers (client : HttpClient) (url : Url) (limit : Duration) (IsValue : Document → Prop)
    (Tells : α → Node → Prop) (r : HttpReply) (result : Except FetchError α) : Prop where
  unanswered : r.arrives limit = false → ∃ reason, result = .error (.transport url.text reason)
  refused : r.arrives limit = true → ¬ r.Succeeds →
    result = .error (.status url.text r.status.code (r.errorText client limit))
  brokenOff : r.arrives limit = true → r.Succeeds → r.isWhole limit = false →
    ∃ reason, result = .error (.transport url.text reason)
  malformed : r.arrives limit = true → r.Succeeds → r.isWhole limit = true →
    ¬ IsValue (.ofBytes r.body) → ∃ reason, result = .error (.decode url.text reason)
  value : r.arrives limit = true → r.Succeeds → r.isWhole limit = true →
    IsValue (.ofBytes r.body) → ∃ a, result = .ok a ∧ Tells a (Document.ofBytes r.body).root

variable {url : Url} {decode : Document → Decoded α}

theorem read_refused {response : HttpResponse} (h : ¬ response.status.isSuccess = true) :
    read url decode (.ok response) =
      .error (.status url.text response.status.code (response.text.toOption.getD "")) := by
  simp [read, h]

theorem read_brokenOff {response : HttpResponse} (h : response.status.isSuccess = true)
    {reason : String} (hbytes : response.bytes = .error reason) :
    read url decode (.ok response) = .error (.transport url.text reason) := by
  simp [read, h, hbytes]

/-- A whole body of a success is read, whatever becomes of it. -/
theorem read_whole {response : HttpResponse} (h : response.status.isSuccess = true)
    {body : List UInt8} (hbytes : response.bytes = .ok body) :
    read url decode (.ok response) =
      (decode (.ofBytes body)).mapError fun fault => .decode url.text fault.message := by
  simp only [read, h, hbytes, Bool.not_true, Bool.false_eq_true, if_false]
  cases decode (.ofBytes body) <;> rfl

/-- An error names the URL, whatever it is about the exchange that fails. -/
theorem url_of_read {answer : Except String HttpResponse} {e : FetchError}
    (h : read url decode answer = .error e) : e.url = url.text := by
  cases answer with
  | error reason =>
    cases h
    rfl
  | ok response =>
    by_cases hstatus : response.status.isSuccess = true
    · cases hbytes : response.bytes with
      | error reason =>
        rw [read_brokenOff hstatus hbytes] at h
        cases h
        rfl
      | ok body =>
        rw [read_whole hstatus hbytes] at h
        cases hread : decode (.ofBytes body) with
        | ok a => simp [hread, Except.mapError] at h
        | error fault =>
          rw [hread] at h
          cases h
          rfl
    · rw [read_refused hstatus] at h
      cases h
      rfl

/-- A decoder that reads just the values of a kind makes a fetch that is after them. -/
theorem answers_of_renders {IsValue : Document → Prop} {Tells : α → Node → Prop}
    (hvalue : ∀ d, (∃ a, decode d = .ok a) ↔ IsValue d)
    (htells : ∀ d a, decode d = .ok a → Tells a d.root) {client : HttpClient} {limit : Duration}
    {r : HttpReply} (harrives : r.arrives limit = true) {response : HttpResponse}
    (h : client.Renders limit r response) :
    Answers client url limit IsValue Tells r (read url decode (.ok response)) where
  unanswered hlost := by
    rw [harrives] at hlost
    cases hlost
  refused _ hstatus := by
    rw [← HttpReply.isSuccess_iff, ← h.status] at hstatus
    rw [read_refused hstatus, h.errorText, h.status]
  brokenOff _ hstatus hbroken := by
    rw [← HttpReply.isSuccess_iff, ← h.status] at hstatus
    obtain ⟨⟨reason, hbytes⟩, -⟩ := h.broken hbroken
    exact ⟨reason, read_brokenOff hstatus hbytes⟩
  malformed _ hstatus hwhole hother := by
    rw [← HttpReply.isSuccess_iff, ← h.status] at hstatus
    rw [read_whole hstatus (h.whole hwhole).1]
    cases hread : decode (.ofBytes r.body) with
    | error fault => exact ⟨fault.message, rfl⟩
    | ok a => exact absurd ((hvalue _).mp ⟨a, hread⟩) hother
  value _ hstatus hwhole hbody := by
    rw [← HttpReply.isSuccess_iff, ← h.status] at hstatus
    obtain ⟨a, ha⟩ := (hvalue _).mpr hbody
    rw [read_whole hstatus (h.whole hwhole).1, ha]
    exact ⟨a, rfl, htells _ a ha⟩

/-- Without a response, nothing of the reply counts. -/
theorem answers_of_lost {IsValue : Document → Prop} {Tells : α → Node → Prop}
    {client : HttpClient} {limit : Duration} {r : HttpReply} (hlost : r.arrives limit = false)
    (reason : String) :
    Answers client url limit IsValue Tells r (read url decode (.error reason)) where
  unanswered _ := ⟨reason, rfl⟩
  refused harrives := by simp [hlost] at harrives
  brokenOff harrives := by simp [hlost] at harrives
  malformed harrives := by simp [hlost] at harrives
  value harrives := by simp [hlost] at harrives

end

/-! ## Fetches -/

/-- A fetch from a URL. Where a request can be made for it, one goes out, unless the reply leads
on, and the fetch answers by its reply; else none does. An error names the URL in full. -/
structure Fetches {α : Type} (client : HttpClient) (config : Config) (url : Url)
    (IsValue : Document → Prop) (Tells : α → Node → Prop) (service : HttpService)
    (fetched : HttpService × Except FetchError α) : Prop where
  unsent : url.isRequestable = false →
    fetched.1 = service ∧ ∃ reason, fetched.2 = .error (.transport url.text reason)
  oneRequest : url.isRequestable = true → service.reply.isRedirect = false →
    fetched.1 = { service with served := service.served ++ [⟨url.target, config.userAgent⟩] }
  answers : url.isRequestable = true → service.reply.isRedirect = false →
    Answers client url config.timeout IsValue Tells service.reply fetched.2
  names : ∀ e, fetched.2 = .error e → e.url = url.text
  inFull : url.isRequestable = true → ∃ site : Authority, url.authority = some site ∧
    url.text = url.scheme ++ "://" ++ site.text ++ url.target ++
      (url.fragment.map ("#" ++ ·)).getD ""

theorem text_of_authority {url : Url} {site : Authority} (h : url.authority = some site) :
    url.text = url.scheme ++ "://" ++ site.text ++ url.target ++
      (url.fragment.map ("#" ++ ·)).getD "" := by
  have hslashes : url.scheme ++ ":" ++ ("//" ++ site.text) = url.scheme ++ "://" ++ site.text := by
    rw [show "://" = ":" ++ "//" by decide]
    simp only [String.append_assoc]
  unfold Url.text
  rw [h]
  dsimp only
  rw [hslashes]
  cases url.fragment <;> rfl

/-- A fetch with a client to rely on is one, whatever it is after. -/
theorem fetches_of_fetch {α : Type} {client : HttpClient} (hclient : client.Lawful)
    {config : Config} {source : HttpSource} (h : ofConfig config = .ok source)
    {decode : Document → Decoded α} {IsValue : Document → Prop} {Tells : α → Node → Prop}
    (hvalue : ∀ d, (∃ a, decode d = .ok a) ↔ IsValue d)
    (htells : ∀ d a, decode d = .ok a → Tells a d.root) (url : Url) (service : HttpService) :
    Fetches client config url IsValue Tells service (source.fetch client service url decode) where
  unsent hurl := by
    obtain ⟨hservice, reason, hresponse⟩ := hclient.refuses (source.query url) service hurl
    refine ⟨hservice, reason, ?_⟩
    unfold fetch
    dsimp only
    rw [hresponse]
    rfl
  oneRequest hurl hdirect := by
    refine (hclient.asks (source.query url) service hurl hdirect).trans ?_
    unfold HttpService.serve HttpQuery.request query
    rw [userAgent_of_ofConfig h]
  answers hurl hdirect := by
    unfold fetch
    dsimp only
    rw [← timeout_of_ofConfig h]
    cases harrives : service.reply.arrives source.timeout with
    | true =>
      obtain ⟨response, hresponse, hrenders⟩ :=
        hclient.answers (source.query url) service hurl hdirect harrives
      rw [hresponse]
      exact answers_of_renders hvalue htells harrives hrenders
    | false =>
      obtain ⟨reason, hresponse⟩ :=
        hclient.loses (source.query url) service hurl hdirect harrives
      rw [hresponse]
      exact answers_of_lost harrives reason
  names e := url_of_read
  inFull hurl := by
    cases hsite : url.authority with
    | none => simp [Url.isRequestable, hsite] at hurl
    | some site => exact ⟨site, rfl, text_of_authority hsite⟩

/-- A fetch of a record, and one of all records, makes one request to its own URL, if one can be
made for it and the reply does not lead on. The reply is an error of transport if it does not
come in time, an error of status if it is no success, whatever its body, one of transport again
if the body breaks off, and one of decoding if the body is not what is asked for; else it is
what the body says. -/
theorem fetch_asks_once_and_answers_by_the_reply {client : HttpClient} (hclient : client.Lawful)
    {config : Config} {source : HttpSource} (h : ofConfig config = .ok source)
    (service : HttpService) :
    (∀ appId, Fetches client config (source.recordUrl appId) Application.IsRecordText
      Application.Tells service (source.fetchRecord client service appId)) ∧
    Fetches client config source.listUrl Application.IsRecordListText Application.ListTells
      service (source.fetchList client service) := by
  constructor
  · intro appId
    apply fetches_of_fetch hclient h (fun _ => Application.exists_ofDocument_iff)
    intro d a
    exact Application.tells_of_ofDocument
  · apply fetches_of_fetch hclient h (fun _ => Application.exists_listOfDocument_iff)
    intro d apps
    exact Application.listTells_of_listOfDocument

/-- The body of a record is quoted behind an error status, lost where it breaks off, and a
record behind a success. A list may be `null`. -/
theorem one_body_is_answered_by_its_head :
    let record : Value := .object [("guid", .string "a1")]
    let reply : HttpReply := { body := utf8Bytes record.text }
    let refused : HttpReply := { reply with status := ⟨503, by decide⟩, bodiless := nofun }
    let fetched (r : HttpReply) := (standard.fetchRecord .direct { replies := [r] } "a1").2
    let url := "http://localhost:8080/ui/apps/a1"
    (standard.fetchRecord .direct { replies := [reply] } "a1").1.served =
        [⟨"/ui/apps/a1", "applauncher/0.1.0"⟩] ∧
      fetched refused = .error (.status url 503 record.text) ∧
      (∃ reason, fetched { reply with isCut := true } = .error (.transport url reason)) ∧
      (∃ a, fetched reply = .ok a ∧ a.guid = "a1") ∧
      (standard.fetchList .direct { replies := [{ body := utf8Bytes Value.null.text }] }).2 =
        .ok [] := by
  intro record reply refused fetched url
  have hurl : (standard.recordUrl "a1").text = url := by decide
  have hroot (v : Value) : Document.ofBytes (utf8Bytes v.text) = ⟨v.node, true⟩ :=
    (Document.ofBytes_utf8Bytes v.text).trans (Document.ofString_text v)
  have hfetches (r : HttpReply) :=
    (fetch_asks_once_and_answers_by_the_reply HttpClient.direct_lawful ofConfig_standard
      { replies := [r] }).1 "a1"
  have hanswers (r : HttpReply) (hdirect : r.isRedirect = false) :=
    (hfetches r).answers (by decide) hdirect
  have hlist := (fetch_asks_once_and_answers_by_the_reply HttpClient.direct_lawful ofConfig_standard
    { replies := [{ body := utf8Bytes Value.null.text }] }).2.answers (by decide) rfl
  rw [← hurl]
  refine ⟨?_, ?_, ?_, ?_, ?_⟩
  · rw [(hfetches reply).oneRequest (by decide) rfl]
    decide
  · have hquoted : refused.errorText .direct Config.standard.timeout = record.text := by
      unfold HttpReply.errorText
      rw [if_pos (HttpReply.isWhole_of_now rfl rfl _),
        HttpClient.direct_lawful.text_of_utf8 (by decide) (.inl rfl)]
      exact Utf8.lenient_utf8Bytes record.text
    rw [← hquoted]
    exact (hanswers refused rfl).refused (HttpReply.arrives_of_now rfl rfl _) (by decide)
  · exact (hanswers { reply with isCut := true } rfl).brokenOff (HttpReply.arrives_of_now rfl rfl _)
      (by decide) rfl
  · have hbody : Application.IsRecordText (.ofBytes reply.body) := by
      rw [hroot record, ← Application.exists_ofDocument_iff]
      exact ⟨{ guid := "a1" }, rfl⟩
    obtain ⟨a, ha, htells⟩ := (hanswers reply rfl).value (HttpReply.arrives_of_now rfl rfl _)
      (by decide) (HttpReply.isWhole_of_now rfl rfl _) hbody
    have hguid : Node.valuesNamed ["guid", "id"] (Document.ofBytes (utf8Bytes record.text)).root =
        [Node.string (.ok a.guid)] := htells.guid
    rw [hroot record] at hguid
    change [Node.string (.ok "a1")] = [Node.string (.ok a.guid)] at hguid
    exact ⟨a, ha, by simpa using hguid.symm⟩
  · have hbody : Application.IsRecordListText (.ofBytes (utf8Bytes Value.null.text)) := by
      rw [hroot .null]
      exact ⟨⟨trivial, rfl⟩, .inl rfl⟩
    obtain ⟨apps, happs, htells⟩ := hlist.value (HttpReply.arrives_of_now rfl rfl _) (by decide)
      (HttpReply.isWhole_of_now rfl rfl _) hbody
    rw [happs]
    obtain ⟨-, rfl⟩ | ⟨items, hitems, -⟩ := htells
    · rfl
    · change (Document.ofBytes (utf8Bytes Value.null.text)).root = .list items .closed at hitems
      rw [hroot .null] at hitems
      cases hitems

/-- A source may be made for a place that no request can be made for: then a reply that waits
there is never asked for. And the URL that an error names has the fragment of the base, which
the request does not have. -/
theorem ftp_is_never_asked_and_a_fragment_stays_here :
    let record : HttpReply := { body := utf8Bytes (Value.object [("guid", .string "a1")]).text }
    let service : HttpService := { replies := [record] }
    let refusing : HttpService := { replies := [{ status := ⟨503, by decide⟩, bodiless := nofun }] }
    (ofConfig { Config.standard with baseUrl := "ftp://localhost:8080" } = .ok overFtp ∧
      (overFtp.fetchRecord .direct service "a1").1.served = [] ∧
      ∃ reason, (overFtp.fetchRecord .direct service "a1").2 =
        .error (.transport "ftp://localhost:8080/ui/apps/a1" reason)) ∧
    ofConfig { Config.standard with baseUrl := "http://localhost:8080#f" } = .ok withFragment ∧
      (withFragment.fetchRecord .direct refusing "a1").1.served =
        [⟨"/ui/apps/a1", "applauncher/0.1.0"⟩] ∧
      (withFragment.fetchRecord .direct refusing "a1").2 =
        .error (.status "http://localhost:8080/ui/apps/a1#f" 503 "") := by
  intro record service refusing
  have hftp : (overFtp.recordUrl "a1").text = "ftp://localhost:8080/ui/apps/a1" := by decide
  have hfragment : (withFragment.recordUrl "a1").text = "http://localhost:8080/ui/apps/a1#f" := by
    decide
  have hfetches {config : Config} {s : HttpSource} (h : ofConfig config = .ok s)
      (service : HttpService) := fetches_of_fetch HttpClient.direct_lawful h
    (fun _ => Application.exists_ofDocument_iff) (fun _ _ => Application.tells_of_ofDocument)
    (s.recordUrl "a1") service
  have hunsent := (hfetches ofConfig_overFtp service).unsent (by decide)
  have hsent := hfetches ofConfig_withFragment refusing
  rw [← hftp, ← hfragment]
  refine ⟨⟨ofConfig_overFtp, ?_, hunsent.2⟩, ofConfig_withFragment, ?_, ?_⟩
  · exact congrArg HttpService.served hunsent.1
  · refine (congrArg HttpService.served (hsent.oneRequest (by decide) rfl)).trans ?_
    decide
  · refine ((hsent.answers (by decide) rfl).refused (HttpReply.arrives_of_now rfl rfl _)
      (by decide)).trans ?_
    have hempty : Utf8.lenient refusing.reply.body = "" := Utf8.lenient_utf8Bytes ""
    unfold HttpReply.errorText
    rw [if_pos (HttpReply.isWhole_of_now rfl rfl _),
      HttpClient.direct_lawful.text_of_utf8 rfl (.inl rfl), hempty]
    rfl

end HttpSource

end Provisioning
