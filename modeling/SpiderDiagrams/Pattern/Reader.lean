import SpiderDiagrams.Pattern.Basic
import SpiderDiagrams.Text.Alphanumeric
import SpiderDiagrams.Text.Hexadecimal
import SpiderDiagrams.Text.Space

/-!
Reading patterns. They stand between the marks of a longer text, which they cannot hold themselves:
there is no closing brace in them, so whatever needs one is a fault.
-/

namespace SpiderDiagrams.Pattern

/-- Takes white space and comments, which go up to the end of a line, from the front; the first
argument says whether a comment has begun. -/
def withoutSpace : Bool → List Char → List Char
  | _, [] => []
  | true, c :: cs => withoutSpace (c ≠ '\n') cs
  | false, c :: cs =>
    if Text.space.contains c then withoutSpace false cs
    else if c = '#' then withoutSpace true cs
    else c :: cs

def skip (spaced : Bool) (cs : List Char) : List Char :=
  if spaced then withoutSpace false cs else cs

def hexDigits (spaced : Bool) : Nat → Nat → List Char → Option (Nat × List Char)
  | 0, n, cs => some (n, cs)
  | k + 1, n, cs =>
    match skip spaced cs with
    | [] => none
    | c :: cs => do hexDigits spaced k (16 * n + (← Text.hexValue? c)) cs

def hexChar (spaced : Bool) (digits : Nat) (cs : List Char) : Option (Pattern × List Char) := do
  let (n, cs) ← hexDigits spaced digits 0 cs
  if n.isValidChar then return (.char ⟨Char.ofNat n, digits = 2⟩, cs) else none

/-- What follows a backslash. Letters and digits have a meaning of their own or none; all other ASCII
characters stand for themselves. -/
def escaped (spaced : Bool) : List Char → Option (Pattern × List Char)
  | [] => none
  | c :: cs =>
    match c with
    | 'x' => hexChar spaced 2 cs
    | 'u' => hexChar spaced 4 cs
    | 'U' => hexChar spaced 8 cs
    | 'p' | 'P' =>
      match skip spaced cs with
      | [] | '\\' :: _ | '\x7b' :: _ => none
      | _ :: cs => some (.property, cs)
    | 'd' | 's' | 'w' => some (.kind false, cs)
    | 'D' | 'S' | 'W' => some (.kind true, cs)
    | 'a' => some (.char ⟨'\x07', false⟩, cs)
    | 'f' => some (.char ⟨'\x0c', false⟩, cs)
    | 't' => some (.char ⟨'\t', false⟩, cs)
    | 'n' => some (.char ⟨'\n', false⟩, cs)
    | 'r' => some (.char ⟨'\r', false⟩, cs)
    | 'v' => some (.char ⟨'\x0b', false⟩, cs)
    | 'A' | 'z' => some (.anchor, cs)
    | 'b' | 'B' | '<' | '>' => some (.wordBoundary, cs)
    | c => if c.toNat < 0x80 && !c.isAlphanum then some (.char ⟨c, false⟩, cs) else none

def member? : Pattern → Option CharClass
  | .char c => some (.char c)
  | .kind negated => some (.kind negated)
  | .property => some .property
  | _ => none

def memberAt (spaced : Bool) : List Char → Option (CharClass × List Char)
  | [] => none
  | '\\' :: cs => do
    let (p, cs) ← escaped spaced cs
    return (← member? p, cs)
  | c :: cs => some (.char ⟨c, false⟩, cs)

/-- The next character that counts. Of a comment only the mark before it is left out. -/
def peek? (spaced : Bool) (cs : List Char) : Option Char :=
  if spaced then
    match cs.dropWhile Text.space.contains with
    | '#' :: cs => (cs.dropWhile Text.space.contains).head?
    | cs => cs.head?
  else cs.head?

/-- A member, or two characters with a dash between them. A dash before the end of the class or
before another dash is no such dash. -/
def memberOrRange (spaced : Bool) (cs : List Char) : Option (CharClass × List Char) := do
  let (first, cs) ← memberAt spaced cs
  match skip spaced cs with
  | '-' :: rest =>
    if peek? spaced rest = some ']' ∨ peek? spaced rest = some '-' then return (first, '-' :: rest)
    else
      let (last, rest) ← memberAt spaced (skip spaced rest)
      match first, last with
      | .char a, .char b => if a.char ≤ b.char then return (.range a b, rest) else none
      | _, _ => none
  | cs => return (first, cs)

def classNames : List String :=
  ["alnum", "alpha", "ascii", "blank", "cntrl", "digit", "graph", "lower", "print", "punct", "space",
    "upper", "word", "xdigit"]

def namedClass? (cs : List Char) : Option (CharClass × List Char) :=
  match cs with
  | ':' :: cs =>
    let (negated, cs) := match cs with
      | '^' :: cs => (true, cs)
      | cs => (false, cs)
    match cs.dropWhile (· ≠ ':') with
    | ':' :: ']' :: rest =>
      if String.ofList (cs.takeWhile (· ≠ ':')) ∈ classNames then some (.named negated, rest)
      else none
    | _ => none
  | _ => none

/-- A class that is not closed yet: its members so far with the last one first, and what stands on
the left of the operation they belong to. -/
structure OpenClass where
  negated : Bool
  left : Option CharClass := none
  members : List CharClass := []
  /-- Whether dashes and a closing bracket still stand for themselves. -/
  fresh : Bool := true

namespace OpenClass

def add (o : OpenClass) (c : CharClass) : OpenClass :=
  { o with members := c :: o.members, fresh := false }

def contents (o : OpenClass) : CharClass :=
  let right := match o.members with
    | [] => .empty
    | [c] => c
    | cs => .union cs.reverse
  match o.left with
  | none => right
  | some left => .operation left right

def operate (o : OpenClass) : OpenClass :=
  { o with left := some o.contents, members := [], fresh := false }

end OpenClass

def openClass (spaced : Bool) (cs : List Char) : OpenClass × List Char :=
  match skip spaced cs with
  | '^' :: cs => ({ negated := true }, cs)
  | cs => ({ negated := false }, cs)

/-- The rest of a class with the classes around it; every step reads a character. -/
def classRest (spaced : Bool) :
    Nat → OpenClass → List OpenClass → List Char → Option ((Bool × CharClass) × List Char)
  | 0, _, _, _ => none
  | n + 1, o, outer, cs =>
    match skip spaced cs with
    | [] => none
    | '-' :: '-' :: rest =>
      if o.fresh then
        classRest spaced n { o with members := .char ⟨'-', false⟩ :: o.members } outer ('-' :: rest)
      else classRest spaced n o.operate outer rest
    | '&' :: '&' :: rest => classRest spaced n o.operate outer rest
    | '~' :: '~' :: rest => classRest spaced n o.operate outer rest
    | '[' :: rest =>
      match namedClass? rest with
      | some (c, rest) => classRest spaced n (o.add c) outer rest
      | none =>
        let (inner, rest) := openClass spaced rest
        classRest spaced n inner (o :: outer) rest
    | c :: rest =>
      if o.fresh && c == '-' then
        classRest spaced n { o with members := .char ⟨'-', false⟩ :: o.members } outer rest
      else if c == ']' && !(o.fresh && o.members.isEmpty) then
        match outer with
        | [] => some ((o.negated, o.contents), rest)
        | around :: outer =>
          classRest spaced n (around.add (.bracketed o.negated o.contents)) outer rest
      else if c == ']' then classRest spaced n (o.add (.char ⟨']', false⟩)) outer rest
      else do
        let (member, rest) ← memberOrRange spaced (c :: rest)
        classRest spaced n (o.add member) outer rest

def bracketed? (spaced : Bool) (cs : List Char) : Option (Pattern × List Char) := do
  let (o, cs) := openClass spaced cs
  let ((negated, c), rest) ← classRest spaced (cs.length + 1) o [] cs
  return (.bracketed negated c, rest)

/-- A letter for each flag, and behind a dash one for each flag that is switched off. -/
def flags? (text : List Char) : Option PatternFlags :=
  let state (c : Char) : Option Bool :=
    if text.contains c then some (!(text.takeWhile (· ≠ c)).contains '-') else none
  if text.all (['i', 'm', 's', 'U', 'u', 'R', 'x', '-'].contains ·) ∧ text.Nodup ∧
      text.getLast? ≠ some '-' then
    some ⟨state 'i', state 'u', state 'x'⟩
  else none

def isGroupName : List Char → Bool
  | [] => false
  | c :: cs =>
    (c == '_' || Text.alphabetic.contains c) &&
      cs.all fun c => c == '_' || c == '.' || c == '[' || c == ']' || Text.isAlphanumeric c

inductive Opening where
  | group (f : PatternFlags)
  | namedGroup (name : String)
  | flags (f : PatternFlags)

def groupName? (cs : List Char) : Option (Opening × List Char) :=
  let name := cs.takeWhile (· ≠ '>')
  match cs.dropWhile (· ≠ '>') with
  | _ :: rest => if isGroupName name then some (.namedGroup (String.ofList name), rest) else none
  | [] => none

/-- A group with or without a name, or with flags; or flags alone, of which there is at least one. -/
def opening? : List Char → Option (Opening × List Char)
  | '?' :: 'P' :: '<' :: cs => groupName? cs
  | '?' :: '<' :: cs => groupName? cs
  | '?' :: cs => do
    let text := cs.takeWhile fun c => c ≠ ':' && c ≠ ')'
    let f ← flags? text
    match cs.drop text.length with
    | ':' :: rest => return (.group f, rest)
    | _ :: rest => if text.isEmpty then none else return (.flags f, rest)
    | [] => none
  | cs => some (.group {}, cs)

/-- The part of a group that was read: the branches before the last one and the items of the last,
each with the last one first. -/
structure OpenGroup where
  flags : PatternFlags := {}
  spaced : Bool := false
  branches : List Pattern := []
  items : List Pattern := []

namespace OpenGroup

def add (g : OpenGroup) (p : Pattern) : OpenGroup := { g with items := p :: g.items }

def lastBranch (g : OpenGroup) : Pattern :=
  match g.items with
  | [] => .empty
  | [p] => p
  | ps => .sequence ps.reverse

def contents (g : OpenGroup) : Pattern :=
  match g.branches with
  | [] => g.lastBranch
  | ps => .choice (g.lastBranch :: ps).reverse

def branch (g : OpenGroup) : OpenGroup :=
  { g with branches := g.lastBranch :: g.branches, items := [] }

def repeat? (g : OpenGroup) : Option OpenGroup :=
  match g.items with
  | [] | .flags _ :: _ => none
  | p :: ps => some { g with items := .repeated p :: ps }

end OpenGroup

structure ReaderState where
  group : OpenGroup := {}
  outer : List OpenGroup := []
  names : List String := []

namespace ReaderState

def add (s : ReaderState) (p : Pattern) : ReaderState := { s with group := s.group.add p }

/-- A group begins with the way of its surroundings to deal with white space. -/
def enter (s : ReaderState) (f : PatternFlags) : ReaderState :=
  { s with
    group := { flags := f, spaced := f.spaced.getD s.group.spaced }
    outer := s.group :: s.outer }

def leave? (s : ReaderState) : Option ReaderState :=
  match s.outer with
  | [] => none
  | g :: outer => some { s with group := g.add (.group s.group.flags s.group.contents), outer := outer }

def open? (s : ReaderState) : Opening → Option ReaderState
  | .group f => some (s.enter f)
  | .namedGroup name =>
    if name ∈ s.names then none else some { s.enter {} with names := name :: s.names }
  | .flags f =>
    some { s with group := { s.group.add (.flags f) with spaced := f.spaced.getD s.group.spaced } }

def step (s : ReaderState) (c : Char) (cs : List Char) : Option (ReaderState × List Char) :=
  match c with
  | '(' => do
    let (opening, cs) ← opening? (skip s.group.spaced cs)
    return (← s.open? opening, cs)
  | ')' => do return (← s.leave?, cs)
  | '|' => some ({ s with group := s.group.branch }, cs)
  | '[' => do
    let (p, cs) ← bracketed? s.group.spaced cs
    return (s.add p, cs)
  | '?' | '*' | '+' => do
    let g ← s.group.repeat?
    return ({ s with group := g }, if cs.head? = some '?' then cs.tail else cs)
  | '\x7b' => none
  | '\\' => do
    let (p, cs) ← escaped s.group.spaced cs
    return (s.add p, cs)
  | '.' => some (s.add .dot, cs)
  | '^' | '$' => some (s.add .anchor, cs)
  | c => some (s.add (.char ⟨c, false⟩), cs)

/-- Reads up to the end, where all groups are closed; every step reads a character. -/
def run : Nat → ReaderState → List Char → Option Pattern
  | 0, _, _ => none
  | n + 1, s, cs =>
    match skip s.group.spaced cs with
    | [] => if s.outer.isEmpty then some s.group.contents else none
    | c :: cs => do
      let (s, cs) ← s.step c cs
      run n s cs

end ReaderState

def ofText? (text : String) : Option Pattern :=
  ReaderState.run (text.toList.length + 1) {} text.toList

end SpiderDiagrams.Pattern
