-- Hosts: names and addresses, and their reading.
import Provisioning.Text.Basic
import Provisioning.Url.Letters
import Provisioning.Url.Percent
import Provisioning.Url.Punycode

namespace Provisioning

/-- Why a text is no URL. -/
inductive UrlError
  | noScheme
  | emptyHost
  | badDomain
  | badPort
  | badIpv4
  | badIpv6
  | badHostCharacter
deriving DecidableEq, Repr

def UrlError.message : UrlError → String
  | .noScheme => "relative URL without a base"
  | .emptyHost => "empty host"
  | .badDomain => "invalid international domain name"
  | .badPort => "invalid port number"
  | .badIpv4 => "invalid IPv4 address"
  | .badIpv6 => "invalid IPv6 address"
  | .badHostCharacter => "invalid domain character"

inductive Host
  /-- A name; an empty one stands for no host. -/
  | domain (name : String)
  | ipv4 (address : Nat)
  /-- The eight groups of an address. -/
  | ipv6 (groups : List Nat)
deriving DecidableEq, Repr

namespace Host

/-- No host. -/
def absent : Host := domain ""

def isEmpty : Host → Bool
  | domain name => name.isEmpty
  | _ => false

/-! ## Addresses of four bytes -/

/-- A number in an address: hex after `0x`, octal after `0`, decimal otherwise. -/
def ipv4Number? (s : List Char) : Option Nat :=
  let inBase (base : Nat) (digits : List Char) : Option Nat :=
    (digits.mapM fun c => (hexDigit? c).filter (· < base)).map
      (·.foldl (fun n d => n * base + d) 0)
  match s with
  | [] => none
  | '0' :: 'x' :: digits => inBase 16 digits
  | '0' :: 'X' :: digits => inBase 16 digits
  | '0' :: d :: digits => inBase 8 (d :: digits)
  | digits => inBase 10 digits

/-- The parts of a name between dots; a dot at the end does not count. -/
def dottedParts (name : List Char) : List (List Char) :=
  let parts := splitParts (· == '.') name
  if parts.getLast? = some [] then parts.dropLast else parts

/-- A name whose last part is a number is an address. -/
def endsInNumber (name : List Char) : Bool :=
  match (dottedParts name).getLast? with
  | some last =>
    (!last.isEmpty && last.all Char.isDigit) || (ipv4Number? last).isSome
  | none => false

/-- An address: up to four numbers, the last of which fills what is left. -/
def ipv4? (name : List Char) : Option Nat := do
  let parts := dottedParts name
  if 4 < parts.length then none
  let numbers ← parts.mapM ipv4Number?
  let last ← numbers.getLast?
  let front := numbers.dropLast
  if front.any (255 < ·) || 1 <<< (8 * (4 - front.length)) ≤ last then none
  return front.foldl (fun n d => n * 256 + d) 0 <<< (8 * (4 - front.length)) + last

def ipv4Text (address : Nat) : String :=
  ".".intercalate ([3, 2, 1, 0].map fun i => toString (address >>> (8 * i) % 256))

/-! ## Addresses of eight groups -/

/-- A group: one to four hex digits. -/
def group? (s : List Char) : Option Nat :=
  if s.isEmpty || 4 < s.length then none
  else (s.mapM hexDigit?).map (·.foldl (fun n d => n * 16 + d) 0)

/-- A byte in decimal, without needless zeros. -/
def decimalByte? (s : List Char) : Option Nat :=
  if s.isEmpty || 3 < s.length || (1 < s.length && s.head? == some '0') then none
  else ((s.mapM decimalDigit?).map digitsValue).filter (· < 256)

/-- The groups of a part without a gap. Its end may be four decimal bytes, which
make two groups. -/
def groups? (mayEndInBytes : Bool) (s : List Char) : Option (List Nat) :=
  if s.isEmpty then some []
  else
    let parts := splitParts (· == ':') s
    let last := parts.getLast?.getD []
    if mayEndInBytes && last.contains '.' then do
      let front ← parts.dropLast.mapM group?
      match ← (splitParts (· == '.') last).mapM decimalByte? with
      | [a, b, c, d] => some (front ++ [a * 256 + b, c * 256 + d])
      | _ => none
    else parts.mapM group?

/-- What stands before and after the first two colons in a row. -/
def splitGap : List Char → Option (List Char × List Char)
  | ':' :: ':' :: rest => some ([], rest)
  | c :: rest => (splitGap rest).map fun (before, after) => (c :: before, after)
  | [] => none

/-- An address: eight groups, or fewer with one gap that stands for zeros. -/
def ipv6? (s : List Char) : Option (List Nat) :=
  match splitGap s with
  | none => (groups? true s).filter (·.length == 8)
  | some (before, after) => do
    let front ← groups? false before
    let back ← groups? true after
    if 7 < front.length + back.length then none
    return front ++ List.replicate (8 - front.length - back.length) 0 ++ back

/-- How many zeros a list of groups starts with. -/
def zerosAhead (groups : List Nat) : Nat := (groups.takeWhile (· == 0)).length

/-- The longest run of zero groups, the first of several: its start and length. -/
def longestZeros : Nat → List Nat → Nat × Nat
  | _, [] => (0, 0)
  | start, g :: groups =>
    let later := longestZeros (start + 1) groups
    let here := zerosAhead (g :: groups)
    if later.2 ≤ here then (start, here) else later

def groupsText (groups : List Nat) : String :=
  ":".intercalate (groups.map fun g => String.ofList (Nat.toDigits 16 g))

/-- An address with its longest run of two or more zero groups left out. -/
def ipv6Text (groups : List Nat) : String :=
  let (start, count) := longestZeros 0 groups
  if count < 2 then groupsText groups
  else groupsText (groups.take start) ++ "::" ++ groupsText (groups.drop (start + count))

/-! ## Names -/

/-- May no name hold this character? -/
def isForbidden (c : Char) : Bool :=
  c.toNat ≤ 0x20 || c.toNat = 0x7F || "%#/:<>?@[\\]^|".toList.contains c ||
    (0x80 ≤ c.toNat && (isBlank c || isWithin unusable c))

/-- Could these letters be a label? It does not begin with a mark. -/
def isLabel (letters : List Char) : Bool :=
  !letters.any isForbidden && !letters.head?.any isMark

/-- Could a decoded label stand in a name as it is? -/
def isPlainLabel (letters : List Char) : Bool :=
  letters.any (0x80 ≤ ·.toNat) && isLabel letters && normalized letters == letters

/-- A label as ASCII. A label that says to be encoded has to be so rightly. -/
def labelToAscii (label : List Char) : Option (List Char) :=
  if !isLabel label then none
  else if label.all (·.toNat < 0x80) then
    match label with
    | 'x' :: 'n' :: '-' :: '-' :: code =>
      match Punycode.decode? code with
      | some letters =>
        if isPlainLabel letters && Punycode.encode letters == code then some label else none
      | none => none
    | _ => some label
  else some ("xn--".toList ++ Punycode.encode label)

/-- A name as ASCII, if it is one. -/
def domainToAscii (name : List Char) : Option (List Char) :=
  ((splitParts (· == '.') (normalized name)).mapM labelToAscii).map (joinParts '.')

/-! ## Reading -/

/-- The content of brackets, if a text starts with one; nothing inside if it does
not end with one. -/
def bracketed? : List Char → Option (Option (List Char))
  | '[' :: rest => some (if rest.getLast? = some ']' then some rest.dropLast else none)
  | _ => none

/-- A host in brackets. -/
def ofBrackets (content : Option (List Char)) : Except UrlError Host :=
  match content.bind ipv6? with
  | some groups => .ok (ipv6 groups)
  | none => .error .badIpv6

/-- The host of a scheme that names hosts by their domain. -/
def ofText (s : List Char) : Except UrlError Host :=
  match bracketed? s with
  | some content => ofBrackets content
  | none =>
    match (Percent.decode? s).bind domainToAscii with
    | none => .error .badDomain
    | some [] => .error .emptyHost
    | some name =>
      if endsInNumber name then
        match ipv4? name with
        | some address => .ok (ipv4 address)
        | none => .error .badIpv4
      else .ok (domain (String.ofList name))

/-- May no host of another scheme hold this character? -/
def isForbiddenPlain (c : Char) : Bool := "\x00\t\n\r #/:<>?@[\\]^|".toList.contains c

/-- The host of any other scheme, which is not interpreted. -/
def ofPlainText (s : List Char) : Except UrlError Host :=
  match bracketed? s with
  | some content => ofBrackets content
  | none =>
    if s.any isForbiddenPlain then .error .badHostCharacter
    else .ok (domain (String.ofList (Percent.encode .controls s)))

def text : Host → String
  | domain name => name
  | ipv4 address => ipv4Text address
  | ipv6 groups => "[" ++ ipv6Text groups ++ "]"

end Host

end Provisioning
