-- Filter directives such as `info` or `tracker=debug,warn`: which log lines
-- they let through. A directive may also name a span and fields of it in
-- brackets; such a directive holds inside that span only.
import Provisioning.Log.Format
import Provisioning.Text.Basic

namespace Provisioning

/-- How much is let through: nothing, or lines up to a level. -/
inductive LevelLimit
  | off
  | upTo (level : LogLevel)
deriving DecidableEq, Repr

namespace LevelLimit

/-- From nothing (0) to everything (5). -/
def verbosity : LevelLimit → Nat
  | off => 0
  | upTo level => level.verbosity

def name : LevelLimit → String
  | off => "off"
  | upTo level => level.name.map Char.toLower

def all : List LevelLimit :=
  [off, upTo .error, upTo .warn, upTo .info, upTo .debug, upTo .trace]

/-- Everything. -/
def most : LevelLimit := upTo .trace

def max (a b : LevelLimit) : LevelLimit := if a.verbosity < b.verbosity then b else a

/-- Is a line of this level let through? -/
def admits (limit : LevelLimit) (level : LogLevel) : Bool := level.verbosity ≤ limit.verbosity

/-- A number as text, with or without a plus sign. -/
def number? (s : List Char) : Option Nat :=
  let digits := match s with
    | '+' :: rest => rest
    | s => s
  if digits.isEmpty then none else (digits.mapM decimalDigit?).map digitsValue

/-- The limit that a text names, in any case or by number. -/
def ofText? (s : List Char) : Option LevelLimit :=
  match number? s with
  | some n => all[n]?
  | none =>
    let lower := String.ofList (s.map Char.toLower)
    if lower = "" then some (upTo .error) else all.find? (·.name == lower)

end LevelLimit

/-- Why a text is no filter. -/
inductive LogFilterFault
  | badForm
  | badLevel
deriving DecidableEq, Repr

def LogFilterFault.message : LogFilterFault → String
  | badForm => "invalid filter directive"
  | badLevel =>
    "error parsing level filter: expected one of \"off\", \"error\", \"warn\", \"info\", " ++
      "\"debug\", \"trace\", or a number 0-5"

/-- One directive of a filter. -/
structure LogDirective where
  /-- The start of the targets that it is about; none for all. -/
  target : Option String := none
  limit : LevelLimit := .most
  /-- Does it hold inside a span only? -/
  inSpan : Bool := false
  /-- Does it ask for the value of a field? -/
  hasValue : Bool := false

/-! ## Reading -/

/-- Where a reader of directives stands. The numbers say where a part starts. -/
inductive DirectivePosition
  | start
  | levelOrTarget
  | span (first : Nat)
  | field (first : Nat)
  | fieldsEnd
  | afterSpan
  | level (first : Nat)

/-- May a directive start with this character? Letters and digits beyond ASCII
are not told apart from other visible characters. -/
def startsDirective (c : Char) : Bool :=
  c == '-' || c == ':' || c == '_' || c.isAlphanum || (0x80 ≤ c.toNat && !isBlank c)

/-- A part of a text, by its first place and the one after its last. -/
def cut (text : List Char) (first stop : Nat) : List Char := (text.drop first).take (stop - first)

/-- The character of a directive at place `i`. -/
def DirectivePosition.take (text : List Char) (d : LogDirective) (i : Nat) (c : Char) :
    DirectivePosition → Option (LogDirective × DirectivePosition)
  | .start =>
    if c = '[' then some (d, .span (i + 1))
    else if startsDirective c then some (d, .levelOrTarget)
    else none
  | .levelOrTarget =>
    let target := some (String.ofList (cut text 0 i))
    if c = '=' then some ({ d with target }, .level (i + 1))
    else if c = '[' then some ({ d with target }, .span (i + 1))
    else some (d, .levelOrTarget)
  | .span first =>
    if c = ']' then some ({ d with inSpan := true }, .afterSpan)
    else if c = '\x7b' then
      some ({ d with inSpan := d.inSpan || !(cut text first i).isEmpty }, .field (i + 1))
    else some (d, .span first)
  | .field first =>
    if c = '\x7d' then
      let field := cut text first i
      if field.isEmpty then none
      else
        let hasValue := field.contains '='
        some ({ d with inSpan := d.inSpan || hasValue, hasValue := d.hasValue || hasValue }, .fieldsEnd)
    else some (d, .field first)
  | .fieldsEnd => if c = ']' then some (d, .afterSpan) else none
  | .afterSpan => if c = '=' then some (d, .level (i + 1)) else none
  | .level first => some (d, .level first)

/-- Reads on from place `i` to the end of a directive. -/
def readDirective (text : List Char) (d : LogDirective) (position : DirectivePosition) (i : Nat) :
    List Char → Option (LogDirective × DirectivePosition)
  | [] => some (d, position)
  | c :: rest =>
    match position.take text d i c with
    | some (d, next) => readDirective text d next (i + 1) rest
    | none => none

namespace LogDirective

/-- A directive: a level, a target, or both. A target alone lets everything of it
through. Blanks around a directive do not count for its form, and places are
counted without them, but parts are cut out of the whole text. So a blank does no
harm only where no part is cut. -/
def ofText (text : List Char) : Except LogFilterFault LogDirective :=
  match readDirective text {} .start 0 (trimBlanks text) with
  | some (d, .levelOrTarget) =>
    match LevelLimit.ofText? text with
    | some limit => .ok { d with limit }
    | none => .ok { d with target := some (String.ofList text) }
  | some (d, .level first) =>
    let level := text.drop first
    if level.isEmpty then .ok d
    else match LevelLimit.ofText? level with
      | some limit => .ok { d with limit }
      | none => .error .badLevel
  | some (d, .afterSpan) => .ok d
  | _ => .error .badForm

end LogDirective

/-- A filter is its directives, in the order of their text. -/
structure LogFilter where
  directives : List LogDirective

namespace LogFilter

/-- The filter of a text; empty parts count for nothing. -/
def ofText (text : String) : Except LogFilterFault LogFilter := do
  let parts := (splitParts (· == ',') text.toList).filter (!·.isEmpty)
  let directives ← parts.mapM LogDirective.ofText
  return ⟨if directives.isEmpty then [{ limit := .upTo .error }] else directives⟩

/-- The filter of settings: their own directives, or else those of the
environment if they are in order, or else `info`. -/
def ofSettings (s : LogSettings) (environment : Option String) : Except LogFilterFault LogFilter :=
  match s.level with
  | some text => ofText text
  | none =>
    match environment.map ofText with
    | some (.ok filter) => .ok filter
    | _ => ofText "info"

/-- The most that any directive lets through; with a condition on a value, it is
not known beforehand and may be everything. -/
def maxLimit (f : LogFilter) : LevelLimit :=
  if f.directives.any LogDirective.hasValue then .most
  else f.directives.foldl (fun limit d => limit.max d.limit) .off

/-- How closely a directive describes its targets. -/
def specificity (d : LogDirective) : Nat :=
  match d.target with
  | some target => target.utf8ByteSize + 1
  | none => 0

/-- The directive for a target: the closest one, and the latest of those. -/
def directiveFor (f : LogFilter) (target : String) : Option LogDirective :=
  let about (d : LogDirective) : Bool :=
    !d.inSpan && match d.target with
      | some start => target.startsWith start
      | none => true
  (f.directives.filter about).foldl
    (fun best d => match best with
      | some b => if specificity d < specificity b then some b else some d
      | none => some d)
    none

/-- Is a line let through? -/
def admits (f : LogFilter) (target : String) (level : LogLevel) : Bool :=
  match f.directiveFor target with
  | some d => d.limit.admits level
  | none => false

end LogFilter

end Provisioning
