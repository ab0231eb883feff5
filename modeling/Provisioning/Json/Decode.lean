-- Reading values of known types from trees. Faults come in the order of
-- the text: the first one met wins, be it of form or of type.
import Provisioning.Json.Value
import Provisioning.Text.Quoted

namespace Provisioning.Json

/-- What a text holds where something else is expected. -/
inductive Found
  | null
  | bool (value : Bool)
  | number (n : Number)
  | string (s : String)
  | list
  | object
deriving DecidableEq, Repr

/-- Why a text is not a value of the expected type. -/
inductive DecodeFault
  | malformed (fault : SyntaxFault)
  | invalidType (found : Found) (expected : String)
  | invalidValue (found : Found) (expected : String)
  | invalidLength (length : Nat) (expected : String)
  | unknownVariant (name : String) (expected : List String)
  | missingField (name : String)
  | duplicateField (name : String)
  /-- A value of the right type that a rule of its own refuses. -/
  | refused (reason : String)
deriving DecidableEq, Repr

/-- The result of reading a value. -/
abbrev Decoded := Except DecodeFault

/-! ## Messages -/

def Found.text : Found → String
  | .null => "null"
  | .bool value => "boolean `" ++ toString value ++ "`"
  | .number (.integer n) => "integer `" ++ toString n ++ "`"
  | .number (.float x) => "floating point `" ++ (Number.float x).text ++ "`"
  | .string s => "string " ++ quoted s
  | .list => "sequence"
  | .object => "map"

/-- The names that a variant may have. -/
def variantNames : List String → String
  | [] => "there are no variants"
  | [a] => "expected `" ++ a ++ "`"
  | [a, b] => "expected `" ++ a ++ "` or `" ++ b ++ "`"
  | names => "expected one of " ++ ", ".intercalate (names.map fun n => "`" ++ n ++ "`")

def DecodeFault.message : DecodeFault → String
  | .malformed fault => fault.message
  | .invalidType found expected => "invalid type: " ++ found.text ++ ", expected " ++ expected
  | .invalidValue found expected => "invalid value: " ++ found.text ++ ", expected " ++ expected
  | .invalidLength n expected => "invalid length " ++ toString n ++ ", expected " ++ expected
  | .unknownVariant name expected =>
    "unknown variant `" ++ name ++ "`, " ++ variantNames expected
  | .missingField name => "missing field `" ++ name ++ "`"
  | .duplicateField name => "duplicate field `" ++ name ++ "`"
  | .refused reason => reason

/-! ## Plain values -/

/-- A fault of form as a reader's fault. -/
def liftFault {α : Type} : Except SyntaxFault α → Decoded α
  | .ok a => .ok a
  | .error fault => .error (.malformed fault)

/-- The fault of a node that is not of the expected type. -/
def mismatch {α : Type} (expected : String) : Node → Decoded α
  | .null => .error (.invalidType .null expected)
  | .bool value => .error (.invalidType (.bool value) expected)
  | .number literal =>
    (liftFault literal.toNumber).bind fun n => .error (.invalidType (.number n) expected)
  | .string text => (liftFault text).bind fun s => .error (.invalidType (.string s) expected)
  | .list _ _ => .error (.invalidType .list expected)
  | .object _ _ => .error (.invalidType .object expected)
  | .broken read _ => .error (.malformed read)

def decodeString : Node → Decoded String
  | .string text => liftFault text
  | node => mismatch "a string" node

/-- A double; integers are rounded to one. -/
def decodeDouble : Node → Decoded Double
  | .number literal => (liftFault literal.toNumber).map Number.toDouble
  | node => mismatch "f64" node

/-- A natural number below `2 ^ 32`. -/
def decodeUInt32 : Node → Decoded Nat
  | .number literal =>
    (liftFault literal.toNumber).bind fun
      | .integer n =>
        if 0 ≤ n ∧ n < (UInt32.size : Int) then .ok n.toNat
        else .error (.invalidValue (.number (.integer n)) "u32")
      | .float x => .error (.invalidType (.number (.float x)) "u32")
  | node => mismatch "u32" node

/-- A value that may be `null`. -/
def decodeOption {α : Type} (reader : Node → Decoded α) : Node → Decoded (Option α)
  | .null => .ok none
  | node => (reader node).map some

/-- A value that is passed over. -/
def ignore (node : Node) : Decoded Unit :=
  match node.skipFault? with
  | some fault => .error (.malformed fault)
  | none => .ok ()

/-! ## Lists -/

/-- Reads all items of a list. -/
def readItems {α : Type} (reader : Node → Decoded α) (close : ListEnd) :
    List Node → Decoded (List α)
  | [] => match close.readFault? with
    | some fault => .error (.malformed fault)
    | none => .ok []
  | node :: rest =>
    match reader node with
    | .error fault => .error fault
    | .ok a => (readItems reader close rest).map (a :: ·)

/-- A list, with `depth` levels left. -/
def decodeList {α : Type} (depth : Nat) (reader : Nat → Node → Decoded α) : Node → Decoded (List α)
  | .list items close =>
    if depth ≤ 1 then .error (.malformed .recursionLimit)
    else readItems (reader (depth - 1)) close items
  | node => mismatch "a sequence" node

/-- The next item of a list of fixed length, and those after it; none at the end. -/
def nextItem (items : List Node) (close : ListEnd) : Decoded (Option (Node × List Node)) :=
  match items with
  | node :: rest => .ok (some (node, rest))
  | [] => match close.readFault? with
    | some fault => .error (.malformed fault)
    | none => .ok none

/-- The end of a list of fixed length, once its items are read. -/
def endItems (items : List Node) (close : ListEnd) : Decoded Unit :=
  match items, close with
  | _ :: _, _ => .error (.malformed .trailingCharacters)
  | [], .closed => .ok ()
  | [], .eof => .error (.malformed .eofInList)
  | [], .noSeparator => .error (.malformed .trailingCharacters)
  | [], .trailingComma => .error (.malformed .trailingComma)

/-! ## Objects -/

/-- How a reader takes up the member with a given name; none for a name that it
does not know. The reader holds what it has read so far. -/
abbrev MemberReader (σ : Type) := String → σ → Node → Option (Decoded σ)

/-- Reads the members of an object in order. Members with unknown names are
passed over. -/
def readMembers {σ : Type} (reader : MemberReader σ) (close : ObjectEnd) :
    σ → List (Key × Node) → Decoded σ
  | s, [] => match close.readFault? with
    | some fault => .error (.malformed fault)
    | none => .ok s
  | _, (.error fault, _) :: _ => .error (.malformed fault)
  | s, (.ok name, node) :: rest =>
    match reader name s node with
    | some (.error fault) => .error fault
    | some (.ok next) => readMembers reader close next rest
    | none => match ignore node with
      | .error fault => .error fault
      | .ok () => readMembers reader close s rest

/-- Reads a field that may occur once. -/
def readField {α : Type} (name : String) (known : Option α) (reader : Node → Decoded α)
    (node : Node) : Decoded (Option α) :=
  match known with
  | some _ => .error (.duplicateField name)
  | none => (reader node).map some

/-- A field that has to be there. -/
def required {α : Type} (name : String) : Option α → Decoded α
  | some a => .ok a
  | none => .error (.missingField name)

/-! ## Variants -/

/-- The end of an object that holds one variant. -/
def endVariant (members : List (Key × Node)) (close : ObjectEnd) : Decoded Unit :=
  match members, close with
  | [], .closed => .ok ()
  | [], .eof => .error (.malformed .eofInObject)
  | _, _ => .error (.malformed .expectedValue)

/-- The fault of an object that has no name where a variant's name has to come. A
value of another kind is named; an object that is cut short or empty has none. -/
def noVariantFault {α : Type} : ObjectEnd → Decoded α
  | .eof => .error (.malformed .eofInValue)
  | .badKey read _ => .error (.malformed read)
  | .keyNotString .null => mismatch "variant identifier" .null
  | .keyNotString (.bool value) => mismatch "variant identifier" (.bool value)
  | .keyNotString (.number literal) => mismatch "variant identifier" (.number literal)
  | .keyNotString .openList => .error (.invalidType .list "variant identifier")
  | .keyNotString .openObject => .error (.invalidType .object "variant identifier")
  | .keyNotString (.bad read _) => .error (.malformed read)
  | _ => .error (.malformed .expectedValue)

/-- One of several names, written as a string or as an object with that name and
no content. -/
def decodeVariant {α : Type} (depth : Nat) (names : List String) (find : String → Option α) :
    Node → Decoded α
  | .string text =>
    (liftFault text).bind fun name => match find name with
      | some a => .ok a
      | none => .error (.unknownVariant name names)
  | .object members close =>
    if depth ≤ 1 then .error (.malformed .recursionLimit)
    else
      match members with
      | [] => noVariantFault close
      | (key, node) :: rest =>
        (liftFault key).bind fun name => match find name with
          | none => .error (.unknownVariant name names)
          | some a =>
            match node with
            | .null => (endVariant rest close).map fun _ => a
            | node => mismatch "unit" node
  | .broken read _ => .error (.malformed read)
  | _ => .error (.malformed .expectedValue)

end Provisioning.Json
