import SpiderDiagrams.Pattern.Basic

namespace SpiderDiagrams

structure PatternMode where
  ignoreCase : Bool := false
  unicode : Bool := true
deriving DecidableEq

namespace PatternMode

def withFlags (m : PatternMode) (f : PatternFlags) : PatternMode :=
  ⟨f.ignoreCase.getD m.ignoreCase, f.unicode.getD m.unicode⟩

/-- Digits, white space and word characters are known of ASCII only, and bytes that are none of them
are no text. -/
def allowsKind (m : PatternMode) (negated : Bool) : Bool := !m.unicode && !negated

def allowsChar (m : PatternMode) (c : PatternChar) : Bool :=
  if m.unicode then !m.ignoreCase else c.isAscii || !c.isByte

/-- Inside a class, characters outside of ASCII are more than one byte. -/
def allowsMember (m : PatternMode) (c : PatternChar) : Bool :=
  if m.unicode then !m.ignoreCase else c.isAscii

/-- The places around words are known of ASCII only. -/
def allowsWordBoundary (m : PatternMode) : Bool := !m.unicode

mutual

def allowsClass (m : PatternMode) : CharClass → Bool
  | .empty => true
  | .char c => m.allowsMember c
  | .range first last => m.allowsMember first && m.allowsMember last
  | .named negated => if m.unicode then !m.ignoreCase else !negated
  | .kind negated => m.allowsKind negated
  | .property => false
  | .bracketed negated c => (m.unicode || !negated) && m.allowsClass c
  | .union cs => m.allowsClasses cs
  | .operation a b => m.allowsClass a && m.allowsClass b

def allowsClasses (m : PatternMode) : List CharClass → Bool
  | [] => true
  | c :: cs => m.allowsClass c && m.allowsClasses cs

end

def keptIf (m : PatternMode) (condition : Bool) : Option PatternMode :=
  if condition then some m else none

mutual

/-- The mode after a pattern, if the pattern can be used in the given one. Flags hold up to the end
of their group. -/
def after? (m : PatternMode) : Pattern → Option PatternMode
  | .empty | .anchor => some m
  | .char c => m.keptIf (m.allowsChar c)
  | .dot => m.keptIf m.unicode
  | .wordBoundary => m.keptIf m.allowsWordBoundary
  | .kind negated => m.keptIf (m.allowsKind negated)
  | .property => none
  | .bracketed negated c => m.keptIf ((m.unicode || !negated) && m.allowsClass c)
  | .flags f => some (m.withFlags f)
  | .repeated p => m.after? p
  | .group f p => ((m.withFlags f).after? p).map fun _ => m
  | .sequence ps => m.afterAll? ps
  | .choice ps => m.afterAll? ps

def afterAll? (m : PatternMode) : List Pattern → Option PatternMode
  | [] => some m
  | p :: ps => do (← m.after? p).afterAll? ps

end

end PatternMode

def Pattern.isUsable (p : Pattern) : Bool :=
  p.depth ≤ Pattern.maxDepth && (PatternMode.after? {} p).isSome

end SpiderDiagrams
