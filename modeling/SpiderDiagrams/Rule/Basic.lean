import SpiderDiagrams.Construction
import SpiderDiagrams.Rule.Argument

namespace SpiderDiagrams

inductive Rule where
  | conjunctionElimination
  | splitConjunction
  | doubleNegationElimination
  | doubleNegationIntroduction
  | commutativity
  | idempotency
  | trivialImplication
  | splitSpiders
deriving DecidableEq, Hashable

namespace Rule

def all : List Rule :=
  [conjunctionElimination, splitConjunction, doubleNegationElimination, doubleNegationIntroduction,
    commutativity, idempotency, trivialImplication, splitSpiders]

def name : Rule → String
  | conjunctionElimination => "conjunction_elimination"
  | splitConjunction => "split_conjunction"
  | doubleNegationElimination => "double_negation_elimination"
  | doubleNegationIntroduction => "double_negation_introduction"
  | commutativity => "commutativity"
  | idempotency => "idempotency"
  | trivialImplication => "trivial_implication_tautology"
  | splitSpiders => "split_spiders"

def description : Rule → String
  | conjunctionElimination => "Replace a conjunction with one of its operands"
  | splitConjunction => "Split a conjunctive subgoal into one subgoal per conjunct"
  | doubleNegationElimination => "Remove two consecutive negations"
  | doubleNegationIntroduction => "Wrap a diagram in two negations"
  | commutativity => "Swap the operands of a conjunction, disjunction or equivalence"
  | idempotency => "Collapse a conjunction or disjunction of equivalent operands"
  | trivialImplication => "Discharge an implication whose premise and conclusion are equivalent"
  | splitSpiders => "Split a spider's habitat into two disjunctive cases"

def argumentKind : Rule → ArgumentKind
  | conjunctionElimination => .multiple
  | splitSpiders => .spiderRegion
  | _ => .single

def maxSplit : Rule → Nat
  | splitConjunction => 2
  | _ => 1

def ofName? (name : String) : Option Rule := all.find? (·.name = name)

theorem ofName?_name (r : Rule) : ofName? r.name = some r := by
  cases r <;> decide

end Rule

inductive Obstacle where
  | differentSubgoals
  | notConjunction
  | notOperand
  | notWholeSubgoal
  | subgoalNotConjunction
  | notDoubleNegation
  | notCommutative
  | notEquivalent
  | notTrivialImplication
  | notPrimary
  | noSpider (spider : String)
  | notProperPart
deriving DecidableEq

def Obstacle.text : Obstacle → String
  | differentSubgoals => "both targets must be in the same subgoal"
  | notConjunction => "target is not a conjunction"
  | notOperand => "the kept diagram is not an operand of the conjunction"
  | notWholeSubgoal => "only a whole subgoal can be split"
  | subgoalNotConjunction => "subgoal is not a conjunction"
  | notDoubleNegation => "target is not a double negation"
  | notCommutative => "target is not a commutative connective"
  | notEquivalent => "operands are not known to be equivalent"
  | notTrivialImplication => "target is not an implication between equivalent diagrams"
  | notPrimary => "target is not a primary diagram"
  | noSpider spider => s!"there is no spider {Text.quoted spider}"
  | notProperPart => "the region must be a non-empty proper part of the spider's habitat"

inductive RuleError where
  | noSubgoals
  | wrongArgument (rule : Rule)
  | subgoalOutOfRange (index count : Nat)
  | occurrenceNotFound (t : Target)
  | notApplicable (rule : Rule) (o : Obstacle)
  | construction (e : ConstructionError)
deriving DecidableEq

def RuleError.message : RuleError → String
  | noSubgoals => "there are no subgoals to apply the rule to"
  | wrongArgument rule => s!"rule {rule.name} expects {rule.argumentKind.text} as its argument"
  | subgoalOutOfRange index count =>
    s!"subgoal {index} does not exist (there are {count} subgoals)"
  | occurrenceNotFound t =>
    s!"subgoal {t.subgoal} has no sub-diagram at occurrence {t.occurrence}"
  | notApplicable rule o => s!"rule {rule.name} is not applicable: {o.text}"
  | construction e => s!"rule produced an invalid diagram: {e.message}"

end SpiderDiagrams
