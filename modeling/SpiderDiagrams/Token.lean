import SpiderDiagrams.Zone

namespace SpiderDiagrams

inductive Word where
  | nullDiagram | primaryDiagram | unaryDiagram | binaryDiagram
  | spiders | habitats | shadedZones
  | operator | firstOperand | secondOperand
deriving DecidableEq

namespace Word

def all : List Word :=
  [nullDiagram, primaryDiagram, unaryDiagram, binaryDiagram, spiders, habitats, shadedZones,
    operator, firstOperand, secondOperand]

def spelling : Word → String
  | nullDiagram => "NullSD"
  | primaryDiagram => "PrimarySD"
  | unaryDiagram => "UnarySD"
  | binaryDiagram => "BinarySD"
  | spiders => "spiders"
  | habitats => "habitats"
  | shadedZones => "sh_zones"
  | operator => "operator"
  | firstOperand => "arg1"
  | secondOperand => "arg2"

def opensDiagram : Word → Bool
  | nullDiagram | primaryDiagram | unaryDiagram | binaryDiagram => true
  | _ => false

end Word

inductive Mark where
  | openBrace | closeBrace | openBracket | closeBracket | openParen | closeParen | comma | equals
deriving DecidableEq

namespace Mark

def spelling : Mark → Char
  | openBrace => '\x7b'
  | closeBrace => '\x7d'
  | openBracket => '['
  | closeBracket => ']'
  | openParen => '('
  | closeParen => ')'
  | comma => ','
  | equals => '='

def ofChar? : Char → Option Mark
  | '\x7b' => some openBrace
  | '\x7d' => some closeBrace
  | '[' => some openBracket
  | ']' => some closeBracket
  | '(' => some openParen
  | ')' => some closeParen
  | ',' => some comma
  | '=' => some equals
  | _ => none

theorem ofChar?_eq_some_iff {c : Char} {m : Mark} : ofChar? c = some m ↔ c = m.spelling := by
  constructor
  · unfold ofChar?
    split <;> intro h <;> simp_all <;> subst h <;> rfl
  · rintro rfl
    cases m <;> rfl

end Mark

/-- A quoted token stands for the characters between its quotes, none of which is a quote. -/
inductive Token where
  | word (w : Word)
  | mark (m : Mark)
  | quoted (s : String)
deriving DecidableEq

namespace Token

def spelling : Token → String
  | word w => w.spelling
  | mark m => m.spelling.toString
  | quoted s => "\"" ++ s ++ "\""

def printed : Token → String
  | word w => if w.opensDiagram then w.spelling ++ " " else w.spelling
  | mark .comma => ", "
  | mark .equals => " = "
  | t => t.spelling

def text (ts : List Token) : String := String.join (ts.map printed)

theorem toList_text (ts : List Token) : (text ts).toList = ts.flatMap (·.printed.toList) := by
  simp [text, List.flatMap_map]

def bracketed (items : List (List Token)) : List Token :=
  mark .openBracket :: [mark .comma].intercalate items ++ [mark .closeBracket]

def names (s : NameSet) : List Token := bracketed (s.toList.map fun n => [quoted n])

end Token

namespace Zone

def tokens (z : Zone) : List Token :=
  .mark .openParen :: Token.names z.inside ++ .mark .comma :: Token.names z.outside ++ [.mark .closeParen]

def text (z : Zone) : String := Token.text z.tokens

end Zone

def Region.tokens (r : Region) : List Token := Token.bracketed (r.toList.map Zone.tokens)

end SpiderDiagrams
