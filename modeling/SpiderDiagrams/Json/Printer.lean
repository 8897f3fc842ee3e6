import SpiderDiagrams.Json.Basic

namespace SpiderDiagrams.Json

def hexDigit (n : Nat) : Char := Nat.digitChar n

def escapedChar (c : Char) : List Char :=
  match c with
  | '"' => ['\\', '"']
  | '\\' => ['\\', '\\']
  | '\x08' => ['\\', 'b']
  | '\t' => ['\\', 't']
  | '\n' => ['\\', 'n']
  | '\x0c' => ['\\', 'f']
  | '\r' => ['\\', 'r']
  | c =>
    if c < ' ' then ['\\', 'u', '0', '0', hexDigit (c.toNat / 16), hexDigit (c.toNat % 16)] else [c]

def stringChars (s : String) : List Char := '"' :: s.toList.flatMap escapedChar ++ ['"']

def numberChars : Number → List Char
  | .natural n => Nat.toDigits 10 n
  | .negative n => '-' :: Nat.toDigits 10 n
  | .decimal text => text.toList

structure Layout where
  /-- What stands between a key and its value. -/
  colon : List Char
  /-- What stands before an item, or before the closing bracket, at the given depth. -/
  lineBreak : Nat → List Char

def Layout.compact : Layout := ⟨[':'], fun _ => []⟩

def Layout.pretty : Layout := ⟨[':', ' '], fun depth => '\n' :: List.replicate (2 * depth) ' '⟩

mutual

def chars (l : Layout) (depth : Nat) : Json → List Char
  | null => ['n', 'u', 'l', 'l']
  | bool true => ['t', 'r', 'u', 'e']
  | bool false => ['f', 'a', 'l', 's', 'e']
  | number n => numberChars n
  | string s => stringChars s
  | list [] => ['[', ']']
  | list (j :: js) =>
    '[' :: l.lineBreak (depth + 1) ++ chars l (depth + 1) j ++ itemChars l (depth + 1) js
      ++ l.lineBreak depth ++ [']']
  | object [] => ['\x7b', '\x7d']
  | object (m :: ms) =>
    '\x7b' :: l.lineBreak (depth + 1) ++ memberChars l (depth + 1) m ++ membersChars l (depth + 1) ms
      ++ l.lineBreak depth ++ ['\x7d']
  | unreadable _ | broken _ => []

def itemChars (l : Layout) (depth : Nat) : List Json → List Char
  | [] => []
  | j :: js => ',' :: l.lineBreak depth ++ chars l depth j ++ itemChars l depth js

def memberChars (l : Layout) (depth : Nat) : Json × Json → List Char
  | (k, v) => chars l depth k ++ l.colon ++ chars l depth v

def membersChars (l : Layout) (depth : Nat) : List (Json × Json) → List Char
  | [] => []
  | m :: ms => ',' :: l.lineBreak depth ++ memberChars l depth m ++ membersChars l depth ms

end

def compact (j : Json) : String := String.ofList (j.chars .compact 0)

def pretty (j : Json) : String := String.ofList (j.chars .pretty 0)

end SpiderDiagrams.Json
