import SpiderDiagrams.Rule.Apply

namespace SpiderDiagrams

inductive Detail where
  | none
  /-- The occurrence of the operand that is kept. -/
  | operand (occurrence : Nat)
  | spider (name : String) (region : Region)
deriving DecidableEq, Hashable

/-- A place in a diagram where a rule could be applied. -/
structure Candidate where
  rule : Rule
  target : Nat
  detail : Detail
deriving DecidableEq, Hashable

def Candidate.argument (c : Candidate) (subgoal : Nat) : Argument :=
  match c.detail with
  | .none => .single ⟨subgoal, c.target⟩
  | .operand occurrence => .multiple [⟨subgoal, c.target⟩, ⟨subgoal, occurrence⟩]
  | .spider name region => .spiderRegion ⟨subgoal, c.target⟩ name region

namespace Rule

/-- Splits on each single zone of a habitat that has more than one. -/
def splitDetails (p : Primary) : List Detail :=
  p.habitats.entries.flatMap fun (spider, habitat) =>
    if habitat.size < 2 then []
    else habitat.toList.map fun z => .spider spider (.ofList [z])

def detailsAt (rule : Rule) (o : Occurrence) : List Detail :=
  match rule, o.diagram with
  | conjunctionElimination, .binary .conjunction l _ =>
    [.operand (o.index + 1), .operand (o.index + (l.size + 1))]
  | conjunctionElimination, _ => []
  | splitConjunction, .binary .conjunction _ _ => if o.index = 0 then [.none] else []
  | splitConjunction, _ => []
  | doubleNegationIntroduction, d => if d.operator?.isNone then [.none] else []
  | splitSpiders, .primary p => splitDetails p
  | splitSpiders, _ => []
  | rule, d =>
    match rule.replacement? with
    | some f => if (f d).isOk then [.none] else []
    | none => []

def candidates (rule : Rule) (d : Diagram) : List Candidate :=
  d.occurrences.flatMap fun o => (rule.detailsAt o).map (⟨rule, o.index, ·⟩)

end Rule

namespace Goals

def candidatesAt (rules : List Rule) (g : Goals) (subgoal : Nat) : List Candidate :=
  match g[subgoal]? with
  | some d => (rules.flatMap (·.candidates d)).eraseDups
  | none => []

def candidates (rules : List Rule) (g : Goals) : List (Nat × Candidate) :=
  (List.range g.length).flatMap fun i => (g.candidatesAt rules i).map (i, ·)

end Goals

end SpiderDiagrams
