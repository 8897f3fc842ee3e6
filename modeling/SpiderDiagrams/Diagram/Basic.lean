import SpiderDiagrams.Primary

namespace SpiderDiagrams

inductive Diagram where
  | null
  | primary (p : Primary)
  | negation (d : Diagram)
  | binary (c : Connective) (l r : Diagram)
deriving DecidableEq, Hashable, Inhabited

namespace Diagram

def operator? : Diagram → Option Operator
  | null | primary _ => none
  | negation _ => some .negation
  | binary c _ _ => some (.binary c)

def operands : Diagram → List Diagram
  | null | primary _ => []
  | negation d => [d]
  | binary _ l r => [l, r]

def compound : Operator → List Diagram → Except ConstructionError Diagram
  | .negation, [d] => .ok (negation d)
  | .binary c, [l, r] => .ok (binary c l r)
  | op, ds => .error (.arityMismatch op ds.length)

/-- The number of sub-diagrams, the diagram itself among them. This and the numbers that are made from
it have no bound. Below two to the 64, words of 64 bits agree with them (`toNat_wordSize`). -/
def size : Diagram → Nat
  | null | primary _ => 1
  | negation d => d.size + 1
  | binary _ l r => l.size + r.size + 1

def connectives : Diagram → Nat
  | null | primary _ => 0
  | negation d => d.connectives + 1
  | binary _ l r => l.connectives + r.connectives + 1

/-- A diagram that holds however it is read, seen without looking at its operators. -/
def isTrivial : Diagram → Bool
  | null => true
  | primary p => p.isTrivial
  | negation _ | binary _ _ _ => false

def Valid : Diagram → Prop
  | null => True
  | primary p => p.Valid
  | negation d => d.Valid
  | binary _ l r => l.Valid ∧ r.Valid

def decidableValid : (d : Diagram) → Decidable d.Valid
  | null => inferInstanceAs (Decidable True)
  | primary p => inferInstanceAs (Decidable p.Valid)
  | negation d => decidableValid d
  | binary _ l r => @instDecidableAnd _ _ (decidableValid l) (decidableValid r)

instance (d : Diagram) : Decidable d.Valid := decidableValid d

def openingTokens (w : Word) (op : Operator) : List Token :=
  [.word w, .mark .openBrace, .word .operator, .mark .equals, .quoted op.name, .mark .comma,
    .word .firstOperand, .mark .equals]

/-- The tokens of a diagram in front of those that follow it. -/
def tokensOnto (rest : List Token) : Diagram → List Token
  | null => .word .nullDiagram :: .mark .openBrace :: .mark .closeBrace :: rest
  | primary p => p.tokens ++ rest
  | negation d =>
    openingTokens .unaryDiagram .negation ++ d.tokensOnto (.mark .closeBrace :: rest)
  | binary c l r =>
    openingTokens .binaryDiagram (.binary c) ++ l.tokensOnto (.mark .comma ::
      .word .secondOperand :: .mark .equals :: r.tokensOnto (.mark .closeBrace :: rest))

def tokens (d : Diagram) : List Token := d.tokensOnto []

theorem tokensOnto_eq (d : Diagram) (rest : List Token) : d.tokensOnto rest = d.tokens ++ rest := by
  induction d generalizing rest with
  | null => rfl
  | primary p => simp [tokens, tokensOnto]
  | negation d ih =>
    rw [tokens, tokensOnto, tokensOnto, ih, ih [_]]
    simp
  | binary c l r ihl ihr =>
    rw [tokens, tokensOnto, tokensOnto, ihl, ihr, ihl (_ :: _), ihr [_]]
    simp

def text (d : Diagram) : String := Token.text d.tokens

end Diagram

end SpiderDiagrams
