-- HTTP clients: what they are asked to do, and what they hand back.
import Provisioning.Http.Exchange
import Provisioning.Url.Basic

namespace Provisioning

/-! ## Places to ask -/

namespace Url

/-- The same without what is told of the user; a client takes that out and sends it apart. -/
def withoutCredentials (u : Url) : Url :=
  { u with authority := u.authority.map fun a => { a with username := "", password := none } }

/-- May a host hold this character when it stands in a request? -/
def isRequestChar (c : Char) : Bool := c.isAlphanum || "-._~!$&'()*+,;=[]:".toList.contains c

/-- How many bytes may a URL that is asked for have? -/
def requestLimit : Nat := 65534

/-- Can a request be made for this URL? It is one of HTTP, with a host that a request can hold,
and not too long for one. -/
def isRequestable (u : Url) : Bool :=
  (u.scheme == "http" || u.scheme == "https") &&
    u.authority.any (fun a => a.host.text.toList.all isRequestChar) &&
    u.withoutCredentials.text.utf8ByteSize ≤ requestLimit

end Url

/-! ## Queries and responses -/

/-- What a client is asked to do: to get what is at a URL, within a time limit. -/
structure HttpQuery where
  url : Url
  userAgent : String
  limit : Duration

/-- The request that goes out. -/
def HttpQuery.request (q : HttpQuery) : HttpRequest := ⟨q.url.target, q.userAgent⟩

/-- A response, whose body may fail to come; otherwise the failure is told. -/
structure HttpResponse where
  status : HttpStatus
  bytes : Except String (List UInt8)
  text : Except String String

/-- What comes of a query: a response, or the reason why there is none. -/
structure HttpExchange where
  response : Except String HttpResponse
  tookMs : Nat

/-! ## Clients -/

/-- A client asks a service for what is at a URL. It knows how to read texts, given the name of
their encoding. -/
structure HttpClient where
  send : HttpQuery → HttpService → HttpService × HttpExchange
  decoder : String → List UInt8 → String

/-! ## A client that follows no redirects -/

namespace HttpReply

/-- The response of a reply whose head has come. -/
def response (r : HttpReply) (limit : Duration) : HttpResponse where
  status := r.status
  bytes := if r.isWhole limit then .ok r.body else .error "error decoding response body"
  text :=
    if r.isWhole limit then .ok (r.text fun _ => Utf8.lenient)
    else .error "error decoding response body"

def exchange (r : HttpReply) (limit : Duration) : HttpExchange where
  response :=
    if r.isRefused then .error "connection refused"
    else if r.arrives limit then .ok (r.response limit)
    else .error "operation timed out"
  tookMs := min r.wholeMs limit.ceilMillis

end HttpReply

/-- A client that takes every reply as it is and reads all texts as UTF-8. -/
def HttpClient.direct : HttpClient where
  send q service :=
    if q.url.isRequestable then
      let (service, reply) := service.serve q.request
      (service, reply.exchange q.limit)
    else (service, { response := .error "builder error", tookMs := 0 })
  decoder _ := Utf8.lenient

end Provisioning
