namespace SpiderDiagrams

inductive Connective where
  | conjunction | disjunction | implication | equivalence
deriving DecidableEq, Hashable

inductive Operator where
  | negation
  | binary (c : Connective)
deriving DecidableEq, Hashable

namespace Connective

def isCommutative : Connective → Bool
  | implication => false
  | _ => true

end Connective

namespace Operator

def all : List Operator :=
  [negation, binary .conjunction, binary .disjunction, binary .implication, binary .equivalence]

def arity : Operator → Nat
  | negation => 1
  | binary _ => 2

def name : Operator → String
  | negation => "op ¬"
  | binary .conjunction => "op &"
  | binary .disjunction => "op |"
  | binary .implication => "op -->"
  | binary .equivalence => "op <-->"

def ofName? (name : String) : Option Operator := all.find? (·.name = name)

theorem ofName?_name (op : Operator) : ofName? op.name = some op := by
  cases op with
  | negation => rfl
  | binary c => cases c <;> rfl

def isCommutative : Operator → Bool
  | negation => false
  | binary c => c.isCommutative

end Operator

end SpiderDiagrams
