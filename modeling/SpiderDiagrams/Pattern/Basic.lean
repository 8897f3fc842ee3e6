namespace SpiderDiagrams

/-- A character of a pattern. Where a text is read byte by byte, two hexadecimal digits are a byte. -/
structure PatternChar where
  char : Char
  isByte : Bool := false
deriving DecidableEq

def PatternChar.isAscii (c : PatternChar) : Bool := c.char.toNat < 0x80

inductive CharClass where
  | empty
  | char (c : PatternChar)
  | range (first last : PatternChar)
  /-- A class of ASCII characters by its name. -/
  | named (negated : Bool)
  /-- Digits, white space or word characters. -/
  | kind (negated : Bool)
  /-- Characters with a property of their script. -/
  | property
  | bracketed (negated : Bool) (c : CharClass)
  | union (cs : List CharClass)
  /-- What two classes share, or what they do not share. -/
  | operation (left right : CharClass)

structure PatternFlags where
  ignoreCase : Option Bool := none
  unicode : Option Bool := none
  /-- Whether white space and comments are left out. -/
  spaced : Option Bool := none
deriving DecidableEq

inductive Pattern where
  | empty
  | char (c : PatternChar)
  | dot
  /-- The beginning or the end of a line or of the text. -/
  | anchor
  /-- The beginning or the end of a word, or a place that is neither. -/
  | wordBoundary
  /-- Digits, white space or word characters. -/
  | kind (negated : Bool)
  /-- Characters with a property of their script. -/
  | property
  | bracketed (negated : Bool) (c : CharClass)
  /-- Flags for what follows in the group. -/
  | flags (f : PatternFlags)
  | repeated (p : Pattern)
  | group (f : PatternFlags) (p : Pattern)
  | sequence (ps : List Pattern)
  | choice (ps : List Pattern)

mutual

def CharClass.depth : CharClass → Nat
  | .bracketed _ c => c.depth + 1
  | .union cs => CharClass.depthOfAll cs + 1
  | .operation a b => Nat.max a.depth b.depth + 1
  | _ => 0

def CharClass.depthOfAll : List CharClass → Nat
  | [] => 0
  | c :: cs => Nat.max c.depth (CharClass.depthOfAll cs)

end

mutual

def Pattern.depth : Pattern → Nat
  | .bracketed _ c => c.depth + 1
  | .repeated p => p.depth + 1
  | .group _ p => p.depth + 1
  | .sequence ps => Pattern.depthOfAll ps + 1
  | .choice ps => Pattern.depthOfAll ps + 1
  | _ => 0

def Pattern.depthOfAll : List Pattern → Nat
  | [] => 0
  | p :: ps => Nat.max p.depth (Pattern.depthOfAll ps)

end

def Pattern.maxDepth : Nat := 250

end SpiderDiagrams
