import SpiderDiagrams.Json.Basic
import SpiderDiagrams.Json.Binary64
import SpiderDiagrams.Text.Hexadecimal

namespace SpiderDiagrams.Json

def isBlank (c : Char) : Bool := c == ' ' || c == '\t' || c == '\n' || c == '\r'

def skipBlanks (cs : List Char) : List Char := cs.dropWhile isBlank

/-- What was read, and the rest of the text unless it broke off. -/
abbrev Reading := Json × Option (List Char)

def stop (f : TextFault) : Reading := (broken f, none)

def ident (word : List Char) (j : Json) (cs : List Char) : Reading :=
  if word.isPrefixOf cs then (j, some (cs.drop word.length))
  else if cs.isPrefixOf word then stop .endInValue
  else stop .expectedIdent

/-- A part of a string: a character, or a 16-bit unit written as four hexadecimal digits. -/
inductive Piece where
  | char (c : Char)
  | code (n : Nat)

def codeUnit? (a b c d : Char) : Option Nat := do
  return 4096 * (← Text.hexValue? a) + 256 * (← Text.hexValue? b) + 16 * (← Text.hexValue? c) +
    (← Text.hexValue? d)

def shortEscape? : Char → Option Char
  | '"' => some '"'
  | '\\' => some '\\'
  | '/' => some '/'
  | 'b' => some '\x08'
  | 'f' => some '\x0c'
  | 'n' => some '\n'
  | 'r' => some '\r'
  | 't' => some '\t'
  | _ => none

/-- The parts of a string up to its closing quote, and the text after it. -/
def pieces : List Char → Except TextFault (List Piece × List Char)
  | [] => .error .endInString
  | '"' :: cs => .ok ([], cs)
  | '\\' :: 'u' :: a :: b :: c :: d :: cs =>
    match codeUnit? a b c d with
    | none => .error .invalidEscape
    | some n => (pieces cs).map fun (ps, r) => (.code n :: ps, r)
  | '\\' :: 'u' :: _ => .error .endInString
  | '\\' :: c :: cs =>
    match shortEscape? c with
    | none => .error .invalidEscape
    | some e => (pieces cs).map fun (ps, r) => (.char e :: ps, r)
  | ['\\'] => .error .endInString
  | c :: cs =>
    if c < ' ' then .error .controlCharacter
    else (pieces cs).map fun (ps, r) => (.char c :: ps, r)

def isLeading (n : Nat) : Bool := 0xD800 ≤ n && n < 0xDC00

def isTrailing (n : Nat) : Bool := 0xDC00 ≤ n && n < 0xE000

/-- The characters of a string. The first half of a surrogate pair must be followed by another escape,
and that must be the second half. -/
def assemble : List Piece → Except TextFault (List Char)
  | [] => .ok []
  | .char c :: ps => (assemble ps).map (c :: ·)
  | .code n :: ps =>
    if isTrailing n then .error .loneSurrogate
    else if isLeading n then
      match ps with
      | .code m :: ps =>
        if isTrailing m then
          (assemble ps).map (Char.ofNat (0x10000 + (n - 0xD800) * 0x400 + (m - 0xDC00)) :: ·)
        else .error .loneSurrogate
      | _ => .error .endInEscape
    else (assemble ps).map (Char.ofNat n :: ·)

def stringReading (cs : List Char) : Reading :=
  match pieces cs with
  | .error f => stop f
  | .ok (ps, rest) =>
    match assemble ps with
    | .ok s => (string (String.ofList s), some rest)
    | .error f => (unreadable f, some rest)

def isDigit (c : Char) : Bool := '0' ≤ c && c ≤ '9'

def wordLimit : Nat := 0x10000000000000000

def digitValue (c : Char) : Nat := c.toNat - '0'.toNat

/-- Appends digits to a number as long as it fits into a word; the others are returned. -/
def accumulate : Nat → List Char → Nat × List Char
  | n, [] => (n, [])
  | n, c :: cs =>
    let n' := n * 10 + digitValue c
    if n' < wordLimit then accumulate n' cs else (n, c :: cs)

structure NumberParts where
  whole : List Char
  fraction : List Char
  exponentNegative : Bool
  exponent : List Char

/-- The digits that fit into 64 bits count, times a power of ten. Exponents of 32 bits and more make
the number zero, or put it out of range. -/
def NumberParts.value? (p : NumberParts) : Option Binary64 :=
  let (whole, dropped) := accumulate 0 p.whole
  let (significand, unused) := accumulate whole p.fraction
  let exponent := p.exponent.foldl (fun n c => n * 10 + digitValue c) 0
  let shift : Int := dropped.length - (p.fraction.length - unused.length)
  if 0x80000000 ≤ exponent then
    if significand = 0 ∨ p.exponentNegative then some ⟨0, 0⟩ else none
  else Binary64.ofDecimal? significand (if p.exponentNegative then shift - exponent else shift + exponent)

def NumberParts.json (p : NumberParts) (negative : Bool) : Json :=
  match p.value? with
  | some x => number (.decimal (if negative then "-" ++ x.text else x.text))
  | none => unreadable .numberOutOfRange

def integer (whole : List Char) (negative : Bool) : Json :=
  let n := whole.foldl (fun n c => n * 10 + digitValue c) 0
  if !negative && n < wordLimit then number (.natural n)
  else if negative && 0 < n && 2 * n ≤ wordLimit then number (.negative n)
  else NumberParts.json ⟨whole, [], false, []⟩ negative

def digitsReading (cs : List Char) (k : List Char → List Char → Reading) : Reading :=
  match cs.takeWhile isDigit with
  | [] => stop (if cs.isEmpty then .endInValue else .invalidNumber)
  | ds => k ds (cs.dropWhile isDigit)

def exponentReading (negative : Bool) (whole fraction : List Char) (mark : Char) (cs : List Char) :
    Reading :=
  if mark = 'e' ∨ mark = 'E' then
    let (exponentNegative, cs) := match cs with
      | '-' :: cs => (true, cs)
      | '+' :: cs => (false, cs)
      | cs => (false, cs)
    digitsReading cs fun exponent rest =>
      (NumberParts.json ⟨whole, fraction, exponentNegative, exponent⟩ negative, some rest)
  else (NumberParts.json ⟨whole, fraction, false, []⟩ negative, some (mark :: cs))

def afterWhole (negative : Bool) (whole : List Char) : List Char → Reading
  | '.' :: cs => digitsReading cs fun fraction rest =>
    match rest with
    | c :: cs => exponentReading negative whole fraction c cs
    | [] => (NumberParts.json ⟨whole, fraction, false, []⟩ negative, some [])
  | c :: cs =>
    if c = 'e' ∨ c = 'E' then exponentReading negative whole [] c cs
    else (integer whole negative, some (c :: cs))
  | [] => (integer whole negative, some [])

/-- A number whose sign was read. No digit follows a leading zero. -/
def numberReading (negative : Bool) (cs : List Char) : Reading :=
  digitsReading cs fun whole rest =>
    if whole.head? = some '0' ∧ 1 < whole.length then stop .invalidNumber
    else afterWhole negative whole rest

mutual

/-- One value. The first argument bounds the number of values and items in it. -/
def value : Nat → List Char → Reading
  | 0, _ => stop .endInValue
  | n + 1, cs =>
    match skipBlanks cs with
    | [] => stop .endInValue
    | c :: cs =>
      if c = 'n' then ident ['u', 'l', 'l'] null cs
      else if c = 't' then ident ['r', 'u', 'e'] (bool true) cs
      else if c = 'f' then ident ['a', 'l', 's', 'e'] (bool false) cs
      else if c = '"' then stringReading cs
      else if c = '[' then
        let (items, rest) := firstItem n cs
        (list items, rest)
      else if c = '\x7b' then
        let (members, rest) := firstMember n cs
        (object members, rest)
      else if c = '-' then numberReading true cs
      else if isDigit c then numberReading false (c :: cs)
      else stop .expectedValue

def firstItem : Nat → List Char → List Json × Option (List Char)
  | 0, _ => ([broken .endInList], none)
  | n + 1, cs =>
    match skipBlanks cs with
    | [] => ([broken .endInList], none)
    | ']' :: rest => ([], some rest)
    | cs => moreItems n (value n cs)

def moreItems : Nat → Reading → List Json × Option (List Char)
  | _, (j, none) => ([j], none)
  | 0, (j, some _) => ([j, broken .endInList], none)
  | n + 1, (j, some cs) =>
    match skipBlanks cs with
    | [] => ([j, broken .endInList], none)
    | ']' :: rest => ([j], some rest)
    | ',' :: cs =>
      match skipBlanks cs with
      | ']' :: _ => ([j, broken .trailingComma], none)
      | cs =>
        let (items, rest) := moreItems n (value n cs)
        (j :: items, rest)
    | _ => ([j, broken .expectedListEnd], none)

def firstMember : Nat → List Char → List (Json × Json) × Option (List Char)
  | 0, _ => ([(broken .endInObject, null)], none)
  | n + 1, cs =>
    match skipBlanks cs with
    | [] => ([(broken .endInObject, null)], none)
    | '\x7d' :: rest => ([], some rest)
    | cs => member n cs

/-- The members from one that begins here on. A key that is no string breaks the object off. -/
def member : Nat → List Char → List (Json × Json) × Option (List Char)
  | 0, _ => ([(broken .endInObject, null)], none)
  | n + 1, cs =>
    match cs with
    | '"' :: _ =>
      match value n cs with
      | (key, none) => ([(key, null)], none)
      | (key, some cs) =>
        match skipBlanks cs with
        | [] => ([(key, broken .endInObject)], none)
        | ':' :: cs => moreMembers n key (value n cs)
        | _ => ([(key, broken .expectedColon)], none)
    | _ => ([(broken .keyNotString, null)], none)

def moreMembers : Nat → Json → Reading → List (Json × Json) × Option (List Char)
  | _, key, (j, none) => ([(key, j)], none)
  | 0, key, (j, some _) => ([(key, j), (broken .endInObject, null)], none)
  | n + 1, key, (j, some cs) =>
    match skipBlanks cs with
    | [] => ([(key, j), (broken .endInObject, null)], none)
    | '\x7d' :: rest => ([(key, j)], some rest)
    | ',' :: cs =>
      match skipBlanks cs with
      | [] => ([(key, j), (broken .endInValue, null)], none)
      | '\x7d' :: _ => ([(key, j), (broken .trailingComma, null)], none)
      | cs =>
        let (members, rest) := member n cs
        ((key, j) :: members, rest)
    | _ => ([(key, j), (broken .expectedObjectEnd, null)], none)

end

def read (text : String) : Json × Bool :=
  let cs := text.toList
  match value (2 * cs.length + 2) cs with
  | (j, none) => (j, false)
  | (j, some rest) => (j, !(skipBlanks rest).isEmpty)

end SpiderDiagrams.Json
