-- The tree of a JSON text. A text at fault still has a tree: what was in
-- order stands before the fault, so that a reader that stops early, or
-- finds a value of the wrong kind first, answers as it would have done
-- while reading along.
import Provisioning.Json.Token

namespace Provisioning.Json

/-- The name of a member, or the fault of its content. -/
abbrev Key := Except SyntaxFault String

/-- How the items of a list end. -/
inductive ListEnd
  | closed
  | eof
  | noSeparator
  | trailingComma
deriving DecidableEq, Repr

/-- How the members of an object end. -/
inductive ObjectEnd
  | closed
  | eof
  | noSeparator
  | trailingComma
  /-- The text ends after a comma. -/
  | eofAfterComma
  /-- Some other token stands where a name has to come. -/
  | keyNotString (token : Token)
  | badKey (read skip : SyntaxFault)

/-- A JSON value as written: members keep their order and may repeat a name. -/
inductive Node
  | null
  | bool (value : Bool)
  | number (literal : NumberLiteral)
  | string (text : Except SyntaxFault String)
  | list (items : List Node) (close : ListEnd)
  | object (members : List (Key × Node)) (close : ObjectEnd)
  /-- No value: the fault for a reader, and for one that passes over it. -/
  | broken (read skip : SyntaxFault)

/-- A text is one value; more text after it is a fault of its own. -/
structure Document where
  root : Node
  ends : Bool

/-! ## The faults of an end -/

def ListEnd.readFault? : ListEnd → Option SyntaxFault
  | .closed => none
  | .eof => some .eofInList
  | .noSeparator => some .expectedListCommaOrEnd
  | .trailingComma => some .trailingComma

/-- Passing over a list, a comma asks for a value whatever follows. -/
def ListEnd.skipFault? : ListEnd → Option SyntaxFault
  | .trailingComma => some .expectedValue
  | close => close.readFault?

def ObjectEnd.readFault? : ObjectEnd → Option SyntaxFault
  | .closed => none
  | .eof => some .eofInObject
  | .noSeparator => some .expectedObjectCommaOrEnd
  | .trailingComma => some .trailingComma
  | .eofAfterComma => some .eofInValue
  | .keyNotString _ => some .keyNotString
  | .badKey read _ => some read

/-- Passing over an object, a comma asks for a name whatever follows. -/
def ObjectEnd.skipFault? : ObjectEnd → Option SyntaxFault
  | .trailingComma => some .keyNotString
  | .eofAfterComma => some .eofInObject
  | .badKey _ skip => some skip
  | close => close.readFault?

mutual

/-- The first fault in a value that is passed over. The content of its strings
and the size of its numbers do not matter. -/
def Node.skipFault? : Node → Option SyntaxFault
  | .list items close => (itemsSkipFault? items).or close.skipFault?
  | .object members close => (membersSkipFault? members).or close.skipFault?
  | .broken _ skip => some skip
  | _ => none

def itemsSkipFault? : List Node → Option SyntaxFault
  | [] => none
  | node :: rest => node.skipFault?.or (itemsSkipFault? rest)

def membersSkipFault? : List (Key × Node) → Option SyntaxFault
  | [] => none
  | (_, node) :: rest => node.skipFault?.or (membersSkipFault? rest)

end

/-! ## From tokens -/

/-- A list or object that waits for a value. Its content is kept last first. -/
inductive Frame
  | list (items : List Node)
  | member (members : List (Key × Node)) (key : Key)

/-- Where a reader of tokens stands; `outer` are the frames around it. -/
inductive Position
  | value (outer : List Frame)
  | firstItem (outer : List Frame)
  | nextItem (items : List Node) (outer : List Frame)
  | afterItem (items : List Node) (outer : List Frame)
  | firstKey (outer : List Frame)
  | nextKey (members : List (Key × Node)) (outer : List Frame)
  | afterMember (members : List (Key × Node)) (outer : List Frame)
  | colon (members : List (Key × Node)) (key : Key) (outer : List Frame)

/-- What one token does: reading goes on, the value is complete, or the text is
at fault and the tree ends here. -/
inductive Progress
  | goOn (position : Position)
  | complete (node : Node)
  | cutShort (node : Node)

/-- The tree of a text that ends in `node` inside open frames. The frames have
no end of their own to report, since `node` is at fault. -/
def enclose (node : Node) : List Frame → Node
  | [] => node
  | .list items :: outer => enclose (.list (node :: items).reverse .closed) outer
  | .member members key :: outer => enclose (.object ((key, node) :: members).reverse .closed) outer

/-- A complete value takes its place in the frame around it. -/
def close (node : Node) : List Frame → Progress
  | [] => .complete node
  | .list items :: outer => .goOn (.afterItem (node :: items) outer)
  | .member members key :: outer => .goOn (.afterMember ((key, node) :: members) outer)

/-- A token where a value has to come. -/
def takeValue (outer : List Frame) : Token → Progress
  | .openList => .goOn (.firstItem outer)
  | .openObject => .goOn (.firstKey outer)
  | .null => close .null outer
  | .bool value => close (.bool value) outer
  | .number literal => close (.number literal) outer
  | .string text => close (.string text) outer
  | .badString read skip => .cutShort (enclose (.broken read skip) outer)
  | .bad read skip => .cutShort (enclose (.broken read skip) outer)
  | _ => .cutShort (enclose (.broken .expectedValue .expectedValue) outer)

/-- A token where a name has to come. -/
def takeKey (members : List (Key × Node)) (outer : List Frame) : Token → Progress
  | .string key => .goOn (.colon members key outer)
  | .badString read skip => .cutShort (enclose (.object members.reverse (.badKey read skip)) outer)
  | token => .cutShort (enclose (.object members.reverse (.keyNotString token)) outer)

namespace Position

/-- The next token. -/
def take : Position → Token → Progress
  | value outer, token => takeValue outer token
  | firstItem outer, .closeList => close (.list [] .closed) outer
  | firstItem outer, token => takeValue (.list [] :: outer) token
  | nextItem items outer, .closeList =>
    .cutShort (enclose (.list items.reverse .trailingComma) outer)
  | nextItem items outer, token => takeValue (.list items :: outer) token
  | afterItem items outer, .comma => .goOn (.nextItem items outer)
  | afterItem items outer, .closeList => close (.list items.reverse .closed) outer
  | afterItem items outer, _ => .cutShort (enclose (.list items.reverse .noSeparator) outer)
  | firstKey outer, .closeObject => close (.object [] .closed) outer
  | firstKey outer, token => takeKey [] outer token
  | nextKey members outer, .closeObject =>
    .cutShort (enclose (.object members.reverse .trailingComma) outer)
  | nextKey members outer, token => takeKey members outer token
  | afterMember members outer, .comma => .goOn (.nextKey members outer)
  | afterMember members outer, .closeObject => close (.object members.reverse .closed) outer
  | afterMember members outer, _ =>
    .cutShort (enclose (.object members.reverse .noSeparator) outer)
  | colon members key outer, .colon => .goOn (.value (.member members key :: outer))
  | colon members key outer, _ =>
    .cutShort (enclose (.broken .expectedColon .expectedColon) (.member members key :: outer))

/-- The tree when the text ends here. -/
def atEnd : Position → Node
  | value outer => enclose (.broken .eofInValue .eofInValue) outer
  | firstItem outer => enclose (.list [] .eof) outer
  | nextItem items outer => enclose (.broken .eofInValue .eofInValue) (.list items :: outer)
  | afterItem items outer => enclose (.list items.reverse .eof) outer
  | firstKey outer => enclose (.object [] .eof) outer
  | nextKey members outer => enclose (.object members.reverse .eofAfterComma) outer
  | afterMember members outer => enclose (.object members.reverse .eof) outer
  | colon members key outer =>
    enclose (.broken .eofInObject .eofInObject) (.member members key :: outer)

/-- The tree of the tokens from here on. -/
def read (position : Position) : List Token → Document
  | [] => ⟨position.atEnd, true⟩
  | token :: rest =>
    match position.take token with
    | .goOn next => next.read rest
    | .complete node => ⟨node, rest.isEmpty⟩
    | .cutShort node => ⟨node, true⟩

end Position

namespace Document

/-- The tree of a text. -/
def ofGlyphs (s : Glyphs) : Document := (Position.value []).read (tokens s)

def ofString (s : String) : Document := ofGlyphs (glyphs s)

def ofBytes (bytes : List UInt8) : Document := ofGlyphs (Utf8.decode bytes)

end Document

end Provisioning.Json
