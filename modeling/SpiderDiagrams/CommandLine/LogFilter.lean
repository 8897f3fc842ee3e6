import SpiderDiagrams.CommandLine.Log
import SpiderDiagrams.CommandLine.Options
import SpiderDiagrams.Pattern.Mode
import SpiderDiagrams.Pattern.Reader
import SpiderDiagrams.Text.Alphanumeric
import SpiderDiagrams.Text.Slots
import SpiderDiagrams.Text.Space

/-!
Which records are logged. A filter is a text of directives with commas between them, each a level for
everything, or a level for what a target, a span and a field concern, with any of these left out:

    level
    target=level
    target[span{field=value}]=level

Without a level everything that the directive concerns is logged.
-/

namespace SpiderDiagrams.CommandLine

structure FieldPattern where
  name : String
  value : Option String
deriving DecidableEq

/-- The verbosity for targets that begin with the given text. -/
structure LogDirective where
  target : String := ""
  span : Option String := none
  field : Option FieldPattern := none
  verbosity : Nat := LogLevel.trace.verbosity
deriving DecidableEq

abbrev LogFilter := List LogDirective

/-- Digits with or without a sign, a point among or around them and an exponent, or the name of an
infinity or of no number. -/
def isNumber (cs : List Char) : Bool :=
  let unsigned (cs : List Char) : List Char := match cs with
    | '+' :: cs | '-' :: cs => cs
    | cs => cs
  let cs := unsigned cs
  let whole := cs.takeWhile Char.isDigit
  let (fraction, rest) := match cs.drop whole.length with
    | '.' :: cs => (cs.takeWhile Char.isDigit, cs.dropWhile Char.isDigit)
    | cs => ([], cs)
  let exponent : Bool := match rest with
    | [] => true
    | 'e' :: cs | 'E' :: cs => !(unsigned cs).isEmpty && (unsigned cs).all Char.isDigit
    | _ => false
  ["inf", "infinity", "nan"].contains (String.ofList cs).toLower ||
    !(whole ++ fraction).isEmpty && exponent

def isFieldValue (text : String) : Bool :=
  isNumber text.toList || (Pattern.ofText? text).any Pattern.isUsable

def FieldPattern.ofText? (text : String) : Option FieldPattern :=
  if text.isEmpty then none
  else
    let cs := text.toList
    let name := String.ofList (cs.takeWhile (· ≠ '='))
    match cs.dropWhile (· ≠ '=') with
    | [] => some ⟨name, none⟩
    | _ :: cs =>
      let value := String.ofList (cs.takeWhile (· ≠ '='))
      if isFieldValue value then some ⟨name, some value⟩ else none

def verbosity? (text : String) : Option Nat :=
  match number? text with
  | some n => if n ≤ LogLevel.trace.verbosity then some n else none
  | none =>
    match text.toLower with
    | "off" => some 0
    | "error" => some LogLevel.error.verbosity
    | "warn" => some LogLevel.warn.verbosity
    | "info" => some LogLevel.info.verbosity
    | "debug" => some LogLevel.debug.verbosity
    | "trace" => some LogLevel.trace.verbosity
    | _ => none

namespace LogDirective

/-- The slots of the second list, each behind the one at its place in the first. The marks of a
directive are sought in the first, which is the trimmed text, and its parts are cut out of the second,
which is the whole text; so white space in front shifts the parts, by its bytes, against the marks. -/
def places : List (Option Char) → List (Option Char) → List (Option Char × Option Char)
  | _, [] => []
  | [], s :: ss => (none, s) :: places [] ss
  | mark :: marks, s :: ss => (mark, s) :: places marks ss

def part? (ps : List (Option Char × Option Char)) : Option String :=
  (Text.ofSlots? (ps.map (·.2))).map String.ofList

def cut (marks : List Char) (ps : List (Option Char × Option Char)) :
    List (Option Char × Option Char) × List (Option Char × Option Char) :=
  ps.span fun p => !p.1.any marks.contains

def withLevel? (d : LogDirective) (ps : List (Option Char × Option Char)) : Option LogDirective :=
  if ps.isEmpty then some d
  else do return { d with verbosity := ← verbosity? (← part? ps) }

def afterSpan (d : LogDirective) : List (Option Char × Option Char) → Option LogDirective
  | (some '=', _) :: ps => d.withLevel? ps
  | (some _, _) :: _ => none
  | _ => some d

def inField (d : LogDirective) (ps : List (Option Char × Option Char)) : Option LogDirective :=
  match cut ['\x7d'] ps with
  | (field, (some '\x7d', _) :: (some ']', _) :: ps) => do
    afterSpan { d with field := ← FieldPattern.ofText? (← part? field) } ps
  | _ => none

def inSpan (d : LogDirective) (ps : List (Option Char × Option Char)) : Option LogDirective :=
  match cut [']', '\x7b'] ps with
  | (span, (some ']', _) :: ps) => do afterSpan { d with span := ← part? span } ps
  | ([], (some '\x7b', _) :: ps) => inField d ps
  | (span, (some '\x7b', _) :: ps) => do inField { d with span := ← part? span } ps
  | _ => none

def beginsTarget (c : Char) : Bool :=
  c == '-' || c == ':' || c == '_' || Text.isAlphanumeric c

/-- A text that is no level is a target. -/
def ofText? (text : String) : Option LogDirective :=
  let ps := places (Text.slots (Text.trim text.toList)) (Text.slots text.toList)
  match ps with
  | (some '[', _) :: ps => inSpan {} ps
  | (some c, _) :: _ =>
    if !beginsTarget c then none
    else match cut ['=', '['] ps with
    | (target, (some '=', _) :: ps) => do withLevel? { target := ← part? target } ps
    | (target, (some _, _) :: ps) => do inSpan { target := ← part? target } ps
    | _ =>
      match verbosity? text with
      | some n => some { verbosity := n }
      | none => some { target := text }
  | _ => none

/-- Whether a directive says something about a record, whose message is one of its fields. Spans and
values of fields are looked for in the spans around a record, and the program opens none. -/
def concerns (d : LogDirective) (r : LogRecord) : Bool :=
  d.target.toList.isPrefixOf r.target.toList && d.span.isNone &&
    d.field.all fun f => f.value.isNone && ("message" :: r.fields.map (·.1)).contains f.name

/-- Of two directives for one record, whether the second is at least as specific: a longer target is
more specific, for one target a field is, and of two fields the one with the later name. -/
def yieldsTo (d e : LogDirective) : Bool :=
  if d.target.length = e.target.length then
    match d.field, e.field with
    | none, _ => true
    | some _, none => false
    | some f, some g => (compare f.name g.name).isLE
  else d.target.length < e.target.length

end LogDirective

namespace LogFilter

def usual : LogFilter := [{ verbosity := LogLevel.warn.verbosity }]

/-- Without a text, or with one that cannot be read, warnings are logged; without a directive, errors
are. -/
def ofText : Option String → LogFilter
  | none => usual
  | some text =>
    match (text.splitOn ",").filter (!·.isEmpty) with
    | [] => [{ verbosity := LogLevel.error.verbosity }]
    | parts => (parts.mapM LogDirective.ofText?).getD usual

/-- Of the directives for a record the most specific one counts, and of those the last. -/
def verbosityFor (f : LogFilter) (r : LogRecord) : Nat :=
  let best := (f.filter (·.concerns r)).foldl
    (fun (best : Option LogDirective) d =>
      match best with
      | some b => if b.yieldsTo d then some d else some b
      | none => some d) none
  match best with
  | some d => d.verbosity
  | none => 0

def allows (f : LogFilter) (r : LogRecord) : Bool :=
  r.level.verbosity ≤ f.verbosityFor r

def render (f : LogFilter) (rs : List LogRecord) : String :=
  String.join ((rs.filter f.allows).map LogRecord.line)

end LogFilter

end SpiderDiagrams.CommandLine
