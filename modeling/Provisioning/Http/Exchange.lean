-- What goes over the wire: requests, what the other side does with them, and
-- how the body of a reply reads as text.
import Provisioning.Text.Utf16
import Provisioning.Time.Duration

namespace Provisioning

structure HttpRequest where
  /-- Path and query. -/
  target : String
  userAgent : String
deriving DecidableEq, Repr

def HttpRequest.line (r : HttpRequest) : String := "GET " ++ r.target ++ " HTTP/1.1"

/-- Can a request carry this user agent? -/
def isHeaderText (s : String) : Bool := s.toList.all fun c => c == '\t' || (0x20 ≤ c.toNat && c.toNat != 0x7F)

/-! ## Statuses -/

/-- The status of a reply that ends an exchange. Those below 200 only announce another, but
for the one that switches to another protocol. -/
structure HttpStatus where
  code : Nat
  isFinal : code = 101 ∨ 200 ≤ code ∧ code ≤ 999
deriving DecidableEq

namespace HttpStatus

def ok : HttpStatus := ⟨200, by decide⟩

def ofCode? (code : Nat) : Option HttpStatus :=
  if h : code = 101 ∨ 200 ≤ code ∧ code ≤ 999 then some ⟨code, h⟩ else none

def isSuccess (s : HttpStatus) : Bool := 200 ≤ s.code && s.code < 300

/-- Does no body follow the head? -/
def isBodiless (s : HttpStatus) : Bool := [101, 204, 304].contains s.code

/-- Does the reply name another place to ask? -/
def isRedirection (s : HttpStatus) : Bool := [301, 302, 303, 307, 308].contains s.code

end HttpStatus

/-! ## Replies -/

/-- What the other side does with a request. -/
structure HttpReply where
  status : HttpStatus := .ok
  /-- Where the head sends the client, if anywhere. -/
  location : Option String := none
  /-- The encoding that the head names for the body. -/
  charset : Option String := none
  body : List UInt8 := []
  /-- Does the body break off? -/
  isCut : Bool := false
  /-- How long does the head take? -/
  headMs : Nat := 0
  /-- How long does the body take after it? -/
  bodyMs : Nat := 0
  /-- Does the connection fail? -/
  isRefused : Bool := false
  bodiless : status.isBodiless = true → body = [] := by nofun

namespace HttpReply

/-- A connection that fails. -/
def refusal : HttpReply := { isRefused := true }

def isRedirect (r : HttpReply) : Bool := r.status.isRedirection && r.location.isSome

/-- How long does it take until the end of the body? -/
def wholeMs (r : HttpReply) : Nat := r.headMs + r.bodyMs

/-- Does the head come within the time limit? -/
def arrives (r : HttpReply) (limit : Duration) : Bool :=
  !r.isRefused && r.headMs * nanosPerMilli ≤ limit.nanos

/-- Does the whole body come within the time limit? -/
def isWhole (r : HttpReply) (limit : Duration) : Bool :=
  !r.isCut && r.wholeMs * nanosPerMilli ≤ limit.nanos

/-- The body as text: by the mark that it begins with, else by the encoding that the head names,
else as UTF-8. What spells no character is replaced. -/
def text (r : HttpReply) (decoder : String → List UInt8 → String) : String :=
  match textBehindMark? r.body with
  | some text => text
  | none =>
    match r.charset with
    | some charset => decoder charset r.body
    | none => Utf8.lenient r.body

end HttpReply

/-! ## Services -/

/-- A service that gives its replies in turn, the last one over and over. Without
any, it refuses. -/
structure HttpService where
  replies : List HttpReply := []
  served : List HttpRequest := []

namespace HttpService

def reply (s : HttpService) : HttpReply :=
  (s.replies[min s.served.length (s.replies.length - 1)]?).getD .refusal

/-- Serves one request. -/
def serve (s : HttpService) (r : HttpRequest) : HttpService × HttpReply :=
  ({ s with served := s.served ++ [r] }, s.reply)

end HttpService

end Provisioning
