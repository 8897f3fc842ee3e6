import SpiderDiagrams.Search.Strategy

namespace SpiderDiagrams

inductive ProverKind where
  | breadthFirst
  | bestFirst
deriving DecidableEq

inductive DuplicatePolicy where
  | structural
  /-- Those with the same normal forms. -/
  | semantic
deriving DecidableEq

/-- The settings of a search. The strategy is known by name only. -/
structure Config where
  kind : ProverKind := .breadthFirst
  strategy : String := Strategy.none.name
  maxDepth : Nat := 20
  maxStates : Nat := 10000
  maxFrontier : Nat := 100000
  duplicates : DuplicatePolicy := .structural
deriving DecidableEq

inductive ConfigError where
  | unknownRule (name : String)
  | unknownStrategy (name : String)
  | unknownProver (name : String)
deriving DecidableEq

def ConfigError.message : ConfigError → String
  | unknownRule name => s!"unknown inference rule {Text.quoted name}"
  | unknownStrategy name => s!"unknown strategy {Text.quoted name}"
  | unknownProver name => s!"unknown prover {Text.quoted name}"

namespace ProverKind

def all : List ProverKind := [breadthFirst, bestFirst]

def name : ProverKind → String
  | breadthFirst => "breadth_first"
  | bestFirst => "best_first"

def usual : ProverKind := breadthFirst

def named (name : String) : Except ConfigError ProverKind :=
  match all.find? (·.name = name) with
  | some kind => .ok kind
  | none => .error (.unknownProver name)

def namedOrUsual (name : String) : ProverKind := (named name).toOption.getD usual

end ProverKind

namespace Strategy

def usual : Strategy := none

def named (name : String) : Except ConfigError Strategy :=
  match ofName? name with
  | some strategy => .ok strategy
  | .none => .error (.unknownStrategy name)

def namedOrUsual (name : String) : Strategy := (named name).toOption.getD usual

end Strategy

namespace Rule

def named (name : String) : Except ConfigError Rule :=
  match ofName? name with
  | some rule => .ok rule
  | none => .error (.unknownRule name)

def listNamed : List String → Except ConfigError (List Rule)
  | [] => .ok []
  | name :: names => do
    let rule ← named name
    return rule :: (← listNamed names)

end Rule

end SpiderDiagrams
