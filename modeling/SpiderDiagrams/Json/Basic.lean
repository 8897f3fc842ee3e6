namespace SpiderDiagrams

inductive TextFault where
  | endInList | endInObject | endInString | endInValue
  | expectedColon | expectedListEnd | expectedObjectEnd | expectedIdent | expectedValue
  | invalidEscape | invalidNumber | numberOutOfRange | controlCharacter | keyNotString
  | loneSurrogate | endInEscape | trailingComma | trailingCharacters
deriving DecidableEq

def TextFault.message : TextFault → String
  | endInList => "EOF while parsing a list"
  | endInObject => "EOF while parsing an object"
  | endInString => "EOF while parsing a string"
  | endInValue => "EOF while parsing a value"
  | expectedColon => "expected `:`"
  | expectedListEnd => "expected `,` or `]`"
  | expectedObjectEnd => "expected `,` or `\x7d`"
  | expectedIdent => "expected ident"
  | expectedValue => "expected value"
  | invalidEscape => "invalid escape"
  | invalidNumber => "invalid number"
  | numberOutOfRange => "number out of range"
  | controlCharacter => "control character (\\u0000-\\u001F) found while parsing a string"
  | keyNotString => "key must be a string"
  | loneSurrogate => "lone leading surrogate in hex escape"
  | endInEscape => "unexpected end of hex escape"
  | trailingComma => "trailing comma"
  | trailingCharacters => "trailing characters"

/-- A number: a natural number below two to the 64, the negative of one up to two to the 63, or the
decimal text of any other. -/
inductive Number where
  | natural (n : Nat)
  | negative (n : Nat)
  | decimal (text : String)
deriving DecidableEq

/-- A JSON value as far as it can be read. A text that breaks off is broken at its last leaf, so
whoever goes through the value from left to right meets the faults of the text and those of the
value in the order in which they stand there. A string or number may also be complete and yet have
no value, which matters only to those who look at it. The members of an object are kept as they are
written, with their keys as values. -/
inductive Json where
  | null
  | bool (b : Bool)
  | number (n : Number)
  | string (s : String)
  | list (items : List Json)
  | object (members : List (Json × Json))
  | unreadable (f : TextFault)
  | broken (f : TextFault)
deriving Inhabited

namespace Json

def nat (n : Nat) : Json := number (.natural n)

def record (members : List (String × Json)) : Json := object (members.map fun (k, v) => (string k, v))

def strings (l : List String) : Json := list (l.map string)

end Json

end SpiderDiagrams
