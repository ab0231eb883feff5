-- URLs: their parts, and their text.
import Provisioning.Url.Host

namespace Provisioning

/-- What stands between the two slashes and the path. -/
structure Authority where
  username : String := ""
  password : Option String := none
  host : Host := .absent
  port : Option Nat := none
deriving DecidableEq, Repr

inductive UrlPath
  /-- A text that is not divided. -/
  | whole (text : String)
  /-- Segments, each after a slash. -/
  | segments (names : List String)
deriving DecidableEq, Repr

structure Url where
  scheme : String
  authority : Option Authority := none
  path : UrlPath
  query : Option String := none
  fragment : Option String := none
deriving DecidableEq, Repr

/-! ## Schemes -/

/-- The port of a scheme that has one of its own. -/
def defaultPort? (scheme : String) : Option Nat :=
  match scheme with
  | "http" | "ws" => some 80
  | "https" | "wss" => some 443
  | "ftp" => some 21
  | _ => none

/-- Is this a scheme whose URLs always have hosts and segments? -/
def isSpecialScheme (scheme : String) : Bool := scheme == "file" || (defaultPort? scheme).isSome

/-! ## Text -/

namespace Authority

def credentialsText (a : Authority) : String :=
  match a.password with
  | some password => a.username ++ ":" ++ password ++ "@"
  | none => if a.username.isEmpty then "" else a.username ++ "@"

def text (a : Authority) : String :=
  a.credentialsText ++ a.host.text ++
    match a.port with
    | some port => ":" ++ toString port
    | none => ""

end Authority

def UrlPath.text : UrlPath → String
  | whole text => text
  | segments names => String.join (names.map ("/" ++ ·))

namespace Url

/-- Can segments be added to the path? -/
def hasSegments (u : Url) : Bool :=
  match u.path with
  | .segments _ => true
  | .whole _ => false

/-- The path, with what a request asks for. -/
def target (u : Url) : String :=
  u.path.text ++
    match u.query with
    | some query => "?" ++ query
    | none => ""

/-- A path of two slashes at the start would read as an authority, so a dot goes
before it. -/
def pathGuard (u : Url) : String :=
  match u.authority, u.path with
  | none, .segments ("" :: _ :: _) => "/."
  | _, _ => ""

def text (u : Url) : String :=
  u.scheme ++ ":" ++
    (match u.authority with
      | some a => "//" ++ a.text
      | none => u.pathGuard) ++
    u.target ++
    match u.fragment with
    | some fragment => "#" ++ fragment
    | none => ""

end Url

/-! ## Segments -/

/-- Does a segment stand for the directory itself? -/
def isSingleDot (segment : List Char) : Bool :=
  let s := segment.map Char.toLower
  s == ['.'] || s == ['%', '2', 'e']

/-- Does a segment stand for the directory above? -/
def isDoubleDot (segment : List Char) : Bool :=
  let s := segment.map Char.toLower
  s == ['.', '.'] || s == ['.', '%', '2', 'e'] || s == ['%', '2', 'e', '.'] ||
    s == ['%', '2', 'e', '%', '2', 'e']

end Provisioning
