import SpiderDiagrams.Diagram.Basic

/-!
The sub-diagrams of a diagram are numbered parents first and operands from left to right, so the
sub-diagrams of the one at `i` are those from `i` to `i + size`.
-/

namespace SpiderDiagrams

structure Occurrence where
  index : Nat
  diagram : Diagram
deriving DecidableEq

namespace Diagram

/-- The numbers of the operands, counted from the diagram that they belong to. Words of 64 bits agree
with them if the size is such a word (`map_toNat_wordOffsets`). -/
def operandOffsets : Diagram → List Nat
  | null | primary _ => []
  | negation _ => [1]
  | binary _ l _ => [1, l.size + 1]

/-- The sub-diagram with the given number. Words of 64 bits lead to the same places, here and in
`replaceAt?`, if the size is such a word (`word_places_agree`). -/
def sub? : Diagram → Nat → Option Diagram
  | d, 0 => some d
  | negation d, i + 1 => d.sub? i
  | binary _ l r, i + 1 => if i < l.size then l.sub? i else r.sub? (i - l.size)
  | null, _ + 1 | primary _, _ + 1 => none

def replaceAt? : Diagram → Nat → Diagram → Option Diagram
  | _, 0, e => some e
  | negation d, i + 1, e => (d.replaceAt? i e).map negation
  | binary c l r, i + 1, e =>
    if i < l.size then (l.replaceAt? i e).map (binary c · r)
    else (r.replaceAt? (i - l.size) e).map (binary c l)
  | null, _ + 1, _ | primary _, _ + 1, _ => none

def occurrencesFrom (i : Nat) : Diagram → List Occurrence
  | null => [⟨i, null⟩]
  | primary p => [⟨i, primary p⟩]
  | negation d => ⟨i, negation d⟩ :: d.occurrencesFrom (i + 1)
  | binary c l r =>
    ⟨i, binary c l r⟩ :: l.occurrencesFrom (i + 1) ++ r.occurrencesFrom (i + 1 + l.size)

def occurrences (d : Diagram) : List Occurrence := d.occurrencesFrom 0

def occurrence? (d : Diagram) (i : Nat) : Option Occurrence := (d.sub? i).map (⟨i, ·⟩)

end Diagram

def Occurrence.operands (o : Occurrence) : List Occurrence :=
  (o.diagram.operandOffsets.zip o.diagram.operands).map fun (k, d) => ⟨o.index + k, d⟩

end SpiderDiagrams
