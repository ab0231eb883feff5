-- JSON values: objects as lists of members, the look-up and the writing of
-- a member, values from trees, and the compact text of a value.
import Provisioning.Json.Node

namespace Provisioning.Json

/-- A JSON value. An object that is written lists its members in the order in
which they are shown; one that was read has them in the order of their names,
each name once. -/
inductive Value
  | null
  | bool (value : Bool)
  | number (n : Number)
  | string (s : String)
  | list (items : List Value)
  | object (members : List (String × Value))
deriving Repr

abbrev Members := List (String × Value)

/-! ## Members -/

namespace Members

/-- The value of a name. -/
def find? (members : Members) (name : String) : Option Value :=
  (List.find? (fun m => m.1 == name) members).map Prod.snd

/-- Writes a member: in the place of the one with that name, or else before the
first greater name. -/
def insert (name : String) (value : Value) : Members → Members
  | [] => [(name, value)]
  | (n, v) :: rest =>
    if n = name then (name, value) :: rest
    else if name < n then (name, value) :: (n, v) :: rest
    else (n, v) :: insert name value rest

/-- The members of a list by name; of several with one name the last stands. -/
def ofList (members : Members) : Members :=
  members.foldl (fun known (name, value) => insert name value known) []

end Members

namespace Value

/-- The members of an object. -/
def members? : Value → Option Members
  | object members => some members
  | _ => none

/-- The content of a string. -/
def string? : Value → Option String
  | string s => some s
  | _ => none

/-- A natural number as a value. -/
def ofNat (n : Nat) : Value := number (.integer n)

/-- A double as a value; one that is not finite is written as `null`. -/
def ofDouble : Double → Value
  | .finite x => number (.float x)
  | _ => null

/-- A value that may be missing. -/
def ofOption {α : Type} (toValue : α → Value) : Option α → Value
  | none => null
  | some a => toValue a

/-- A text that may be missing. -/
def ofText? : Option String → Value := ofOption string

end Value

/-! ## From trees -/

/-- How deep lists and objects may lie in each other. -/
def depthLimit : Nat := 128

mutual

/-- The value of a tree, with `depth` levels left. -/
def Value.ofNode (depth : Nat) : Node → Except SyntaxFault Value
  | .null => .ok .null
  | .bool value => .ok (.bool value)
  | .number literal => literal.toNumber.map .number
  | .string text => text.map .string
  | .list items close =>
    if depth ≤ 1 then .error .recursionLimit
    else
      match itemValues (depth - 1) items with
      | .error fault => .error fault
      | .ok values => match close.readFault? with
        | some fault => .error fault
        | none => .ok (.list values)
  | .object members close =>
    if depth ≤ 1 then .error .recursionLimit
    else
      match memberValues (depth - 1) members with
      | .error fault => .error fault
      | .ok values => match close.readFault? with
        | some fault => .error fault
        | none => .ok (.object (Members.ofList values))
  | .broken read _ => .error read

def itemValues (depth : Nat) : List Node → Except SyntaxFault (List Value)
  | [] => .ok []
  | node :: rest =>
    match Value.ofNode depth node with
    | .error fault => .error fault
    | .ok value => (itemValues depth rest).map (value :: ·)

def memberValues (depth : Nat) : List (Key × Node) → Except SyntaxFault Members
  | [] => .ok []
  | (.error fault, _) :: _ => .error fault
  | (.ok name, node) :: rest =>
    match Value.ofNode depth node with
    | .error fault => .error fault
    | .ok value => (memberValues depth rest).map ((name, value) :: ·)

end

namespace Document

/-- Reads the root, and asks that nothing follows it. -/
def decode {ε α : Type} (d : Document) (fault : SyntaxFault → ε) (reader : Node → Except ε α) :
    Except ε α :=
  match reader d.root with
  | .error e => .error e
  | .ok a => if d.ends then .ok a else .error (fault .trailingCharacters)

/-- The value of a text. -/
def value (d : Document) : Except SyntaxFault Value := d.decode id (Value.ofNode depthLimit)

end Document

/-! ## Texts -/

/-- The hex digits of a control character's code. -/
def controlCode (n : Nat) : List Char :=
  ['0', '0', if n < 16 then '0' else '1', Nat.digitChar (n % 16)]

/-- One character of a string. -/
def stringChar (c : Char) : List Char :=
  if c = '"' then ['\\', '"']
  else if c = '\\' then ['\\', '\\']
  else if c = '\x08' then ['\\', 'b']
  else if c = '\x0c' then ['\\', 'f']
  else if c = '\n' then ['\\', 'n']
  else if c = '\r' then ['\\', 'r']
  else if c = '\t' then ['\\', 't']
  else if c.toNat < 0x20 then '\\' :: 'u' :: controlCode c.toNat
  else [c]

/-- A string between its quotes. -/
def stringChars (s : String) : List Char := '"' :: s.toList.flatMap stringChar ++ ['"']

mutual

/-- The compact text of a value. -/
def Value.chars : Value → List Char
  | .null => ['n', 'u', 'l', 'l']
  | .bool true => ['t', 'r', 'u', 'e']
  | .bool false => ['f', 'a', 'l', 's', 'e']
  | .number n => n.text.toList
  | .string s => stringChars s
  | .list items => '[' :: itemChars items ++ [']']
  | .object members => '\x7b' :: memberChars members ++ ['\x7d']

def itemChars : List Value → List Char
  | [] => []
  | [value] => value.chars
  | value :: rest => value.chars ++ ',' :: itemChars rest

def memberChars : List (String × Value) → List Char
  | [] => []
  | [(name, value)] => stringChars name ++ ':' :: value.chars
  | (name, value) :: rest => stringChars name ++ ':' :: value.chars ++ ',' :: memberChars rest

end

def Value.text (v : Value) : String := String.ofList v.chars

end Provisioning.Json
