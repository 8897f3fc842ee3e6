import SpiderDiagrams.Json.Codec

namespace SpiderDiagrams

structure Problem where
  id : String
  description : String := ""
  goals : List String
  prover : Option String := none
  strategy : Option String := none
  rules : Option (List String) := none
  maxDepth : Option Nat := none
  provable : Option Bool := none
deriving DecidableEq

inductive LoadError where
  | json (f : JsonFault)
  | invalidGoal (index : Nat) (e : ReadError)
  | config (e : ConfigError)

def LoadError.message : LoadError → String
  | json f => s!"Parse error: {f.message}"
  | invalidGoal index e => s!"Invalid goal #{index}: {e.message}"
  | config e => s!"Invalid configuration: {e.message}"

namespace Problem

def json (p : Problem) : Json :=
  let given (name : String) (j : Option Json) : List (String × Json) :=
    (j.map (name, ·)).toList
  .record ([("id", .string p.id), ("description", .string p.description), ("goals", .strings p.goals)]
    ++ given "prover" (p.prover.map .string)
    ++ given "strategy" (p.strategy.map .string)
    ++ given "rules" (p.rules.map .strings)
    ++ given "max_depth" (p.maxDepth.map .nat)
    ++ given "provable" (p.provable.map .bool))

def decoder : Decoder Problem :=
  .record "struct ProofProblem" [
    .required "id" .string fun p s => { p with id := s },
    .defaulted "description" .string fun p s => { p with description := s },
    .required "goals" (.list .string) fun p gs => { p with goals := gs },
    .defaulted "prover" Decoder.string.optional fun p s => { p with prover := s },
    .defaulted "strategy" Decoder.string.optional fun p s => { p with strategy := s },
    .defaulted "rules" (Decoder.list Decoder.string).optional fun p rs => { p with rules := rs },
    .defaulted "max_depth" Decoder.nat.optional fun p n => { p with maxDepth := n },
    .defaulted "provable" Decoder.bool.optional fun p b => { p with provable := b }]
    { id := "", goals := [] }

def load (text : String) : Except LoadError Problem :=
  (decoder.decode (Json.read text)).mapError .json

def readGoals : Nat → List String → Except LoadError Goals
  | _, [] => .ok []
  | i, text :: texts => do
    let d ← (Diagram.read text).mapError (.invalidGoal i)
    return d :: (← readGoals (i + 1) texts)

def toGoals (p : Problem) : Except LoadError Goals := readGoals 0 p.goals

def toRules (p : Problem) : Except LoadError (List Rule) :=
  match p.rules with
  | none => .ok Rule.all
  | some names => (Rule.listNamed names).mapError .config

/-- The usual settings with those that the problem gives; a prover that is not known is replaced by
the usual one. -/
def config (p : Problem) : Config :=
  let usual : Config := {}
  { usual with
    kind := (p.prover.map ProverKind.namedOrUsual).getD usual.kind
    strategy := p.strategy.getD usual.strategy
    maxDepth := p.maxDepth.getD usual.maxDepth }

end Problem

end SpiderDiagrams
