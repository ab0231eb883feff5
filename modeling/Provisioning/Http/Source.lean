-- Records over HTTP: where they are found, and what an exchange says about
-- them.
import Provisioning.Application.Json
import Provisioning.Fetch.Playback
import Provisioning.Http.Client
import Provisioning.Url.Reading

namespace Provisioning

open Json

/-- A place to fetch records from. -/
structure HttpSource where
  base : Url
  userAgent : String
  timeout : Duration

namespace HttpSource

/-- The source that a configuration names. -/
def ofConfig (c : Config) : Except ConfigError HttpSource :=
  match Url.ofText (trimmed c.baseUrl) with
  | .error fault => .error (.invalid "base_url" fault.message)
  | .ok base =>
    if !base.hasSegments then
      .error (.invalid "base_url" ("'" ++ base.text ++ "' cannot carry a path"))
    else if !isHeaderText c.userAgent then .error (.invalid "http client" "builder error")
    else .ok { base, userAgent := c.userAgent, timeout := c.timeout }

/-- Where the list of records is. -/
def listUrl (s : HttpSource) : Url := s.base.addSegments ["ui", "apps"]

/-- Where the record of an application is. -/
def recordUrl (s : HttpSource) (appId : String) : Url := s.base.addSegments ["ui", "apps", appId]

def query (s : HttpSource) (url : Url) : HttpQuery := ⟨url, s.userAgent, s.timeout⟩

def request (s : HttpSource) (url : Url) : HttpRequest := (s.query url).request

/-! ## Single fetches -/

/-- What comes of a query, read. Only a success with a whole body can hold a value. -/
def read (url : Url) (decode : Document → Decoded α) :
    Except String HttpResponse → Except FetchError α
  | .error reason => .error (.transport url.text reason)
  | .ok response =>
    if !response.status.isSuccess then
      .error (.status url.text response.status.code (response.text.toOption.getD ""))
    else match response.bytes with
      | .error reason => .error (.transport url.text reason)
      | .ok bytes =>
        match decode (.ofBytes bytes) with
        | .ok value => .ok value
        | .error fault => .error (.decode url.text fault.message)

/-- Fetches what is at a URL. -/
def fetch (s : HttpSource) (client : HttpClient) (service : HttpService) (url : Url)
    (decode : Document → Decoded α) : HttpService × Except FetchError α :=
  let (service, exchange) := client.send (s.query url) service
  (service, read url decode exchange.response)

/-- Fetches the record of an application. -/
def fetchRecord (s : HttpSource) (client : HttpClient) (service : HttpService) (appId : String) :
    HttpService × Except FetchError Application :=
  s.fetch client service (s.recordUrl appId) Application.ofDocument

/-- Fetches all records. -/
def fetchList (s : HttpSource) (client : HttpClient) (service : HttpService) :
    HttpService × Except FetchError (List Application) :=
  s.fetch client service s.listUrl Application.listOfDocument

/-! ## Fetches in turn -/

/-- So many exchanges about one application, one after another. -/
def exchanges (s : HttpSource) (client : HttpClient) (appId : String) :
    Nat → HttpService → HttpService × List HttpExchange
  | 0, service => (service, [])
  | n + 1, service =>
    let (service, exchange) := client.send (s.query (s.recordUrl appId)) service
    let (service, later) := s.exchanges client appId n service
    (service, exchange :: later)

/-- Fetches of one application as a script: one for each reply of the service, which repeats
the last of them. -/
def scripted (s : HttpSource) (client : HttpClient) (service : HttpService) (appId : String) :
    Playback :=
  let exchanges := (s.exchanges client appId (max 1 service.replies.length) service).2
  { script := exchanges.map fun e => read (s.recordUrl appId) Application.ofDocument e.response
    latencyMs := fun n => ((exchanges[min (n - 1) (exchanges.length - 1)]?).map (·.tookMs)).getD 0
    opening := some ⟨.debug, "GET"⟩ }

end HttpSource

end Provisioning
