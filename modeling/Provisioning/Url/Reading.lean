-- Reading URLs from texts. A text is taken part by part, from the left: scheme,
-- authority, path, query, fragment.
import Provisioning.Url.Basic

namespace Provisioning.Url

/-! ## Parts -/

/-- Is this a tab or a line break? They do not count, wherever they stand. -/
def isIgnored (c : Char) : Bool := c == '\t' || c == '\n' || c == '\r'

/-- The characters that count. Controls and spaces at the ends do not. -/
def significant (cs : List Char) : List Char :=
  let isEdge (c : Char) : Bool := c.toNat ≤ 0x20
  (((cs.dropWhile isEdge).reverse.dropWhile isEdge).reverse).filter (!isIgnored ·)

def isSchemeChar (c : Char) : Bool := c.isAlphanum || c == '+' || c == '-' || c == '.'

/-- The scheme, in lower case, and what follows its colon. -/
def splitScheme? (cs : List Char) : Option (String × List Char) :=
  match cs.head?, cs.dropWhile isSchemeChar with
  | some first, ':' :: rest =>
    if first.isAlpha then
      some (String.ofList ((cs.takeWhile isSchemeChar).map Char.toLower), rest)
    else none
  | _, _ => none

/-- Does a character divide segments? -/
def isSlash (special : Bool) (c : Char) : Bool := c == '/' || (special && c == '\\')

/-- Does a path end here? -/
def endsPath (c : Char) : Bool := c == '?' || c == '#'

/-- Does an authority end here? -/
def endsAuthority (special : Bool) (c : Char) : Bool := isSlash special c || endsPath c

/-- Query and fragment, as they follow a path. -/
def withTail (special : Bool) (u : Url) (tail : List Char) : Url :=
  let (front, hash) := tail.span (· != '#')
  let set := if special then Percent.EncodedSet.specialQuery else Percent.EncodedSet.query
  { u with
    query := match front with
      | '?' :: query => some (String.ofList (Percent.encode set query))
      | _ => none
    fragment := match hash with
      | '#' :: fragment => some (String.ofList (Percent.encode .fragment fragment))
      | _ => none }

/-! ## Paths -/

/-- Is this the letter of a drive? -/
def isDriveLetter : List Char → Bool
  | [c, d] => c.isAlpha && (d == ':' || d == '|')
  | _ => false

/-- The directory above. In files there is none above a drive. -/
def above (isFile : Bool) (path : List (List Char)) : List (List Char) :=
  if isFile && path.getLast?.any isDriveLetter then path else path.dropLast

/-- Goes on from a path to a segment of it: one dot stays, two go up, and either
at the end leaves a path that ends with a slash. -/
def enter (isFile : Bool) (path : List (List Char)) (segment : List Char) (isLast : Bool) :
    List (List Char) :=
  let close (path : List (List Char)) : List (List Char) := if isLast then path ++ [[]] else path
  if isDoubleDot segment then close (above isFile path)
  else if isSingleDot segment then close path
  else path ++ [segment]

/-- The path that segments lead to. -/
def resolve (isFile : Bool) (path : List (List Char)) : List (List Char) → List (List Char)
  | [] => path
  | segment :: rest => resolve isFile (enter isFile path segment rest.isEmpty) rest

/-- The path of a text without its first slash. -/
def pathOf (special : Bool) (text : List Char) (isFile : Bool := false) : List String :=
  (resolve isFile [] ((splitParts (isSlash special) text).map (Percent.encode .path))).map
    String.ofList

/-- The path of a text that may start with a slash. -/
def rootedPathOf (special : Bool) (text : List Char) (isFile : Bool := false) : List String :=
  match text with
  | [] => if special then [""] else []
  | c :: rest =>
    if isSlash special c then pathOf special rest isFile else pathOf special (c :: rest) isFile

/-! ## Authorities -/

/-- What stands before and after the last at sign. -/
def splitLastAt (cs : List Char) : Option (List Char × List Char) :=
  match cs.reverse.span (· != '@') with
  | (_, []) => none
  | (after, _ :: before) => some (before.reverse, after.reverse)

/-- User name and password; an empty password is none. -/
def readCredentials (cs : List Char) : String × Option String :=
  let write (cs : List Char) : String := String.ofList (Percent.encode .userInfo cs)
  match cs.span (· != ':') with
  | (name, _ :: password) => (write name, if password.isEmpty then none else some (write password))
  | (name, []) => (write name, none)

/-- The host and what follows it; a colon in brackets belongs to the host. -/
def splitHost (inBrackets : Bool) : List Char → List Char × List Char
  | [] => ([], [])
  | c :: rest =>
    if c = ':' ∧ !inBrackets then ([], c :: rest)
    else
      let (host, after) := splitHost (if c = '[' then true else if c = ']' then false else inBrackets) rest
      (c :: host, after)

/-- The port after a host, unless it is the scheme's own, and what follows it. -/
def readPort (scheme : String) : List Char → Except UrlError (Option Nat × List Char)
  | ':' :: cs =>
    let (digits, rest) := cs.span Char.isDigit
    let port := digitsValue (digits.map fun c => c.toNat - '0'.toNat)
    if 65535 < port || !(rest.isEmpty || rest.head? == some '\\') then .error .badPort
    else if digits.isEmpty || defaultPort? scheme == some port then .ok (none, rest)
    else .ok (some port, rest)
  | cs => .ok (none, cs)

/-- The authority of a text that ends with it, and what is left for the path. -/
def readAuthority (scheme : String) (special : Bool) (cs : List Char) :
    Except UrlError (Authority × List Char) := do
  let (credentials, site) := match splitLastAt cs with
    | some (before, after) => (before, after)
    | none => ([], cs)
  let (username, password) := readCredentials credentials
  let (hostText, after) := splitHost false site
  if special && hostText.isEmpty then throw .emptyHost
  let host ← if special then Host.ofText hostText else Host.ofPlainText hostText
  let hasCredentials := !username.isEmpty || password.isSome
  if host.isEmpty && (!after.isEmpty || hasCredentials) then throw .emptyHost
  let (port, rest) ← readPort scheme after
  return ({ username, password, host, port }, rest)

/-- A URL from its authority on. -/
def ofAuthorityText (scheme : String) (special : Bool) (cs : List Char) : Except UrlError Url := do
  let (authorityText, rest) := cs.span (!endsAuthority special ·)
  if authorityText = ['@'] ∧ !rest.isEmpty then throw .emptyHost
  let (authority, left) ← readAuthority scheme special authorityText
  let (path, tail) := (left ++ rest).span (!endsPath ·)
  return withTail special
    { scheme, authority := some authority, path := .segments (rootedPathOf special path) } tail

/-! ## Files -/

/-- The path of a file: it never starts with an empty segment, unless that is
all of it, and a drive letter is followed by a colon. -/
def filePathOf (cs : List Char) : List String :=
  match (rootedPathOf true cs true).dropWhile String.isEmpty with
  | [] => [""]
  | first :: rest =>
    if isDriveLetter first.toList then String.ofList (first.toList.take 1 ++ [':']) :: rest
    else first :: rest

/-- The host of a file; this computer is none. -/
def readFileHost (cs : List Char) : Except UrlError Host :=
  if cs.isEmpty then .ok .absent
  else (Host.ofText cs).map fun host => if host = .domain "localhost" then .absent else host

/-- A file URL from what follows its scheme. -/
def ofFileText (scheme : String) (cs : List Char) : Except UrlError Url := do
  let (hostText, rest) := match cs with
    | a :: b :: after =>
      if isSlash true a && isSlash true b then
        let (hostText, rest) := after.span (!endsAuthority true ·)
        if isDriveLetter hostText then ([], after) else (hostText, rest)
      else ([], cs)
    | _ => ([], cs)
  let host ← readFileHost hostText
  let (path, tail) := rest.span (!endsPath ·)
  return withTail true
    { scheme, authority := some { host }, path := .segments (filePathOf path) } tail

/-! ## All together -/

/-- A URL of a scheme that has no rules of its own. -/
def ofPlainText (scheme : String) : List Char → Except UrlError Url
  | '/' :: '/' :: rest => ofAuthorityText scheme false rest
  | cs =>
    let (path, tail) := cs.span (!endsPath ·)
    .ok (withTail false { scheme, path := match path with
      | '/' :: rest => .segments (pathOf false rest)
      | _ => .whole (String.ofList (Percent.encode .controls path)) } tail)

/-- Reads a URL. It has to name its scheme. -/
def ofText (text : String) : Except UrlError Url :=
  match splitScheme? (significant text.toList) with
  | none => .error .noScheme
  | some (scheme, rest) =>
    if scheme = "file" then ofFileText scheme rest
    else if isSpecialScheme scheme then ofAuthorityText scheme true (rest.dropWhile (isSlash true))
    else ofPlainText scheme rest

/-! ## Adding segments -/

/-- The set of a segment that is added to a path. -/
def segmentSet (u : Url) : Percent.EncodedSet :=
  if isSpecialScheme u.scheme then .specialSegment else .segment

/-- A path without the empty segment that its last slash leaves. -/
def withoutLastSlash (path : List (List Char)) : List (List Char) :=
  if 2 ≤ path.length ∧ path.getLast? = some [] then path.dropLast else path

/-- Adds one segment at the end of a path. One or two dots add nothing; any other
text becomes one segment, encoded. -/
def addSegment (set : Percent.EncodedSet) (path : List (List Char)) (name : String) :
    List (List Char) :=
  if name = "." ∨ name = ".." then path
  else
    let path := if path = [[]] then [] else path
    enter false path (Percent.encode set (name.toList.filter (!isIgnored ·))) true

/-- A URL with segments added to its path, in place of a slash at its end. -/
def addSegments (u : Url) (names : List String) : Url :=
  match u.path with
  | .whole _ => u
  | .segments path =>
    let path := names.foldl (addSegment u.segmentSet) (withoutLastSlash (path.map String.toList))
    { u with path := .segments (path.map String.ofList) }

end Provisioning.Url
