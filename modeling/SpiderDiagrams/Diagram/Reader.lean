import SpiderDiagrams.Diagram.Basic
import SpiderDiagrams.Diagram.Scan

/-!
Reading diagrams. Tokens are first arranged into a raw tree, in which operators are still names and
primary diagrams are unchecked; the tree is then built from the root down. A fault inside a null,
primary or unary diagram is reported at the beginning of that diagram, one inside a binary diagram
at its own place.
-/

namespace SpiderDiagrams

inductive Expected where
  | word
  | mark
  | name
  | nothing
deriving DecidableEq

def Expected.label : Expected → String
  | word => "Tag"
  | mark | name => "Char"
  | nothing => "End of file"

inductive ReadError where
  | malformed (offset : Nat) (expected : Expected)
  | unknownOperator (name : String)
  | construction (e : ConstructionError)
deriving DecidableEq

def ReadError.message : ReadError → String
  | malformed offset expected => s!"syntax error at offset {offset}: {expected.label}"
  | unknownOperator name => s!"unknown operator {Text.quoted name}"
  | construction e => s!"invalid diagram: {e.message}"

inductive Raw where
  | null
  | primary (spiders : List String) (habitats : List (String × List Zone)) (shaded : List Zone)
  | unary (operator : String) (d : Raw)
  | binary (operator : String) (l r : Raw)

namespace Raw

def operatorNamed (name : String) : Except ReadError Operator :=
  match Operator.ofName? name with
  | some op => .ok op
  | none => .error (.unknownOperator name)

/-- Looks up the operator, builds its operands from left to right, and joins them. -/
def build : Raw → Except ReadError Diagram
  | null => .ok .null
  | primary spiders habitats shaded =>
    ((Primary.ofParts spiders habitats shaded).map Diagram.primary).mapError .construction
  | unary name d => do
    let op ← operatorNamed name
    let d ← d.build
    (Diagram.compound op [d]).mapError .construction
  | binary name l r => do
    let op ← operatorNamed name
    let l ← l.build
    let r ← r.build
    (Diagram.compound op [l, r]).mapError .construction

end Raw

namespace Reader

/-- What was expected, and how many tokens were left where it was. -/
structure Fault where
  expected : Expected
  remaining : Nat

def word (w : Word) : List Token → Except Fault (List Token)
  | .word v :: ts => if v = w then .ok ts else .error ⟨.word, ts.length + 1⟩
  | ts => .error ⟨.word, ts.length⟩

def mark (m : Mark) : List Token → Except Fault (List Token)
  | .mark n :: ts => if n = m then .ok ts else .error ⟨.mark, ts.length + 1⟩
  | ts => .error ⟨.mark, ts.length⟩

def name : List Token → Except Fault (String × List Token)
  | .quoted s :: ts => .ok (s, ts)
  | ts => .error ⟨.name, ts.length⟩

def field (w : Word) (ts : List Token) : Except Fault (List Token) := do
  mark .equals (← word w ts)

variable {α : Type}

/-- Items with commas between them up to the closing bracket, at most as many as the first argument. -/
def items (item : List Token → Except Fault (α × List Token)) :
    Nat → List Token → Except Fault (List α × List Token)
  | 0, ts => .error ⟨.mark, ts.length⟩
  | n + 1, ts => do
    match ← item ts with
    | (a, .mark .comma :: ts) =>
      let (l, ts) ← items item n ts
      return (a :: l, ts)
    | (a, ts) => return ([a], ← mark .closeBracket ts)

/-- A comma that no item follows is a fault. Where that lies does not matter: lists stand in primary
diagrams only, whose faults are all reported at the beginning. -/
def list (item : List Token → Except Fault (α × List Token)) (ts : List Token) :
    Except Fault (List α × List Token) := do
  match ← mark .openBracket ts with
  | .mark .closeBracket :: ts => return ([], ts)
  | ts => items item ts.length ts

def zone (ts : List Token) : Except Fault (Zone × List Token) := do
  let (inside, ts) ← list name (← mark .openParen ts)
  let (outside, ts) ← list name (← mark .comma ts)
  return (.ofLists inside outside, ← mark .closeParen ts)

def habitat (ts : List Token) : Except Fault ((String × List Zone) × List Token) := do
  let (spider, ts) ← name (← mark .openParen ts)
  let (region, ts) ← list zone (← mark .comma ts)
  return ((spider, region), ← mark .closeParen ts)

def primary (ts : List Token) : Except Fault (Raw × List Token) := do
  let (spiders, ts) ← list name (← field .spiders (← mark .openBrace ts))
  let (habitats, ts) ← list habitat (← field .habitats (← mark .comma ts))
  let (shaded, ts) ← list zone (← field .shadedZones (← mark .comma ts))
  return (.primary spiders habitats shaded, ← mark .closeBrace ts)

def application (operand : List Token → Except Fault (Raw × List Token)) (ts : List Token) :
    Except Fault ((String × Raw) × List Token) := do
  let (operator, ts) ← name (← field .operator (← mark .openBrace ts))
  let (d, ts) ← operand (← field .firstOperand (← mark .comma ts))
  return ((operator, d), ts)

def unary (operand : List Token → Except Fault (Raw × List Token)) (ts : List Token) :
    Except Fault (Raw × List Token) := do
  let ((operator, d), ts) ← application operand ts
  return (.unary operator d, ← mark .closeBrace ts)

def binary (operand : List Token → Except Fault (Raw × List Token)) (ts : List Token) :
    Except Fault (Raw × List Token) := do
  let ((operator, l), ts) ← application operand ts
  let (r, ts) ← operand (← field .secondOperand (← mark .comma ts))
  return (.binary operator l r, ← mark .closeBrace ts)

/-- A diagram whose nesting is at most as deep as the first argument. -/
def diagram : Nat → List Token → Except Fault (Raw × List Token)
  | 0, ts => .error ⟨.word, ts.length⟩
  | n + 1, ts =>
    -- null, primary, unary and binary diagrams are alternatives, tried in this order from the same
    -- place. When one fails the next is tried, so only the fault of the last survives: that no
    -- binary diagram begins here, or, if one does, the fault in it.
    let atStart := fun (_ : Fault) => (⟨.word, ts.length⟩ : Fault)
    match ts with
    | .word .nullDiagram :: .mark .openBrace :: .mark .closeBrace :: rest => .ok (.null, rest)
    | .word .primaryDiagram :: rest => (primary rest).mapError atStart
    | .word .unaryDiagram :: rest => (unary (diagram n) rest).mapError atStart
    | .word .binaryDiagram :: rest => binary (diagram n) rest
    | _ => .error ⟨.word, ts.length⟩

/-- Where in the text the token stands from which on so many are left. -/
def position (s : Scan) (textSize : Nat) (f : Fault) : Nat :=
  match s.tokens.drop (s.tokens.length - f.remaining) with
  | (offset, _) :: _ => offset
  | [] => if f.expected = .name ∧ s.reason = .unclosed then textSize else s.endOffset

def parse (text : String) : Except ReadError Raw :=
  let s := scan text
  let fail := fun (f : Fault) => ReadError.malformed (position s text.utf8ByteSize f) f.expected
  match diagram (s.tokens.length + 1) (s.tokens.map (·.2)) with
  | .error f => .error (fail f)
  | .ok (raw, rest) =>
    if rest.isEmpty ∧ s.reason = .finished then .ok raw
    else .error (fail ⟨.nothing, rest.length⟩)

end Reader

def Diagram.read (text : String) : Except ReadError Diagram := Reader.parse text >>= Raw.build

end SpiderDiagrams
