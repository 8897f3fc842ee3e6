import SpiderDiagrams.Trace

namespace SpiderDiagrams

inductive Strategy where
  /-- Not at all. -/
  | none
  /-- By the operators in the current goals. -/
  | connectiveCount
  /-- By the operators in those goals that are not implications between equivalent diagrams; all
  goals have to be implications. -/
  | implication
deriving DecidableEq

structure EstimateError where
  subgoal : Nat
deriving DecidableEq

def EstimateError.message (e : EstimateError) : String :=
  s!"strategy implication cannot estimate this proof: subgoal {e.subgoal} is not an implication"

/-- Costs and estimates are at most the largest 32-bit number. -/
def saturate (n : Nat) : Nat := min n 0xffffffff

namespace Strategy

def all : List Strategy := [none, connectiveCount, implication]

def name : Strategy → String
  | none => "none"
  | connectiveCount => "connective_count"
  | implication => "implication"

def ofName? (name : String) : Option Strategy := all.find? (·.name = name)

def isImplication (d : Diagram) : Bool := d.operator? = some (.binary .implication)

def implicationEffort (d : Diagram) : Nat :=
  if (Rule.closeImplication d).isOk then 0 else d.connectives

def estimate : Strategy → Goals → Except EstimateError Nat
  | none, _ => .ok 0
  | connectiveCount, g => .ok (saturate g.connectives)
  | implication, g =>
    match g.findIdx? (!isImplication ·) with
    | some i => .error ⟨i⟩
    | .none => .ok (saturate (g.foldr (implicationEffort · + ·) 0))

end Strategy

def Trace.cost (t : Trace) : Nat := saturate t.steps.length

end SpiderDiagrams
