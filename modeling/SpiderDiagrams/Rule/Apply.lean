import SpiderDiagrams.Diagram.Occurrence
import SpiderDiagrams.Goals
import SpiderDiagrams.Rule.Basic

namespace SpiderDiagrams

namespace Goals

def subgoalAt (g : Goals) (i : Nat) : Except RuleError Diagram :=
  if g.isEmpty then .error .noSubgoals
  else match g[i]? with
  | some d => .ok d
  | none => .error (.subgoalOutOfRange i g.length)

def replaceSubgoal (g : Goals) (i : Nat) (successors : List Diagram) : Except RuleError Goals :=
  match g.replaceSubgoal? i successors with
  | some g => .ok g
  | none => .error (.subgoalOutOfRange i g.length)

def modifyAt (g : Goals) (t : Target) (f : Diagram → Except RuleError Diagram) :
    Except RuleError Goals := do
  let d ← g.subgoalAt t.subgoal
  match d.sub? t.occurrence with
  | none => .error (.occurrenceNotFound t)
  | some e =>
    match d.replaceAt? t.occurrence (← f e) with
    | none => .error (.occurrenceNotFound t)
    | some d => g.replaceSubgoal t.subgoal [d]

end Goals

namespace Rule

def keepOperand (distance : Nat) : Diagram → Except Obstacle Diagram
  | .binary .conjunction l r =>
    if distance = 1 then .ok l
    else if distance = l.size + 1 then .ok r
    else .error .notOperand
  | _ => .error .notConjunction

def dropNegations : Diagram → Except Obstacle Diagram
  | .negation (.negation d) => .ok d
  | _ => .error .notDoubleNegation

def swapOperands : Diagram → Except Obstacle Diagram
  | .binary c l r => if c.isCommutative then .ok (.binary c r l) else .error .notCommutative
  | _ => .error .notCommutative

def collapse : Diagram → Except Obstacle Diagram
  | .binary .conjunction l r | .binary .disjunction l r =>
    if l.Equivalent r then .ok l else .error .notEquivalent
  | _ => .error .notEquivalent

def closeImplication : Diagram → Except Obstacle Diagram
  | .binary .implication l r => if l.Equivalent r then .ok .null else .error .notTrivialImplication
  | _ => .error .notTrivialImplication

/-- The two cases of a spider in a part of its habitat and in the rest. -/
def splitHabitat (spider : String) (region : Region) : Diagram → Except RuleError Diagram
  | .primary p => do
    match p.habitat? spider with
    | none => .error (.notApplicable splitSpiders (.noSpider spider))
    | some habitat =>
      if region.isEmpty || !region.subset habitat || region.size == habitat.size then
        .error (.notApplicable splitSpiders .notProperPart)
      else
        let inside ← (p.withHabitat spider region).mapError .construction
        let outside ← (p.withHabitat spider (habitat.diff region)).mapError .construction
        return .binary .disjunction (.primary inside) (.primary outside)
  | _ => .error (.notApplicable splitSpiders .notPrimary)

def replacement? : Rule → Option (Diagram → Except Obstacle Diagram)
  | doubleNegationElimination => some dropNegations
  | doubleNegationIntroduction => some fun d => .ok (.negation (.negation d))
  | commutativity => some swapOperands
  | idempotency => some collapse
  | trivialImplication => some closeImplication
  | conjunctionElimination | splitConjunction | splitSpiders => none

def split (g : Goals) (t : Target) : Except RuleError Goals := do
  let d ← g.subgoalAt t.subgoal
  if t.occurrence ≠ 0 then .error (.notApplicable splitConjunction .notWholeSubgoal)
  else match d with
  | .binary .conjunction l r => g.replaceSubgoal t.subgoal [l, r]
  | _ => .error (.notApplicable splitConjunction .subgoalNotConjunction)

def eliminate (g : Goals) (t kept : Target) : Except RuleError Goals :=
  if t.subgoal ≠ kept.subgoal then
    .error (.notApplicable conjunctionElimination .differentSubgoals)
  else g.modifyAt t fun d =>
    (keepOperand (kept.occurrence - t.occurrence) d).mapError (.notApplicable conjunctionElimination)

def apply (rule : Rule) (argument : Argument) (g : Goals) : Except RuleError Goals :=
  match rule, argument with
  | conjunctionElimination, .multiple [t, kept] => eliminate g t kept
  | splitConjunction, .single t => split g t
  | splitSpiders, .spiderRegion t spider region => g.modifyAt t (splitHabitat spider region)
  | rule, .single t =>
    match rule.replacement? with
    | some f => g.modifyAt t fun d => (f d).mapError (.notApplicable rule)
    | none => .error (.wrongArgument rule)
  | rule, _ => .error (.wrongArgument rule)

end Rule

end SpiderDiagrams
