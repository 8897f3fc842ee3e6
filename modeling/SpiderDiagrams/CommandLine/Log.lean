import SpiderDiagrams.Search.Prover

namespace SpiderDiagrams.CommandLine

inductive LogLevel where
  | error | warn | info | debug | trace
deriving DecidableEq

namespace LogLevel

def verbosity : LogLevel → Nat
  | error => 1
  | warn => 2
  | info => 3
  | debug => 4
  | trace => 5

def label : LogLevel → String
  | error => "ERROR"
  | warn => " WARN"
  | info => " INFO"
  | debug => "DEBUG"
  | trace => "TRACE"

end LogLevel

structure LogRecord where
  level : LogLevel
  target : String
  message : String
  fields : List (String × String)

def LogRecord.line (r : LogRecord) : String :=
  s!"{r.level.label} {r.target}: {r.message}" ++
    String.join (r.fields.map fun (k, v) => s!" {k}={v}") ++ "\n"

def programTarget : String := "sd_prove"

def registryTarget : String := "spider_reasoner_core::registry"

def searchTarget : String := "spider_reasoner_core::search::prover"

def boolText (b : Bool) : String := if b then "true" else "false"

def searchRecord (e : SearchEvent) : LogRecord :=
  match e with
  | .rejected rule argument e =>
    ⟨.trace, searchTarget, "candidate rejected",
      [("rule", Text.quoted rule.name), ("arg", argument.text), ("err", e.message)]⟩
  | .duplicate rule argument =>
    ⟨.trace, searchTarget, "duplicate goal state",
      [("rule", Text.quoted rule.name), ("arg", argument.text)]⟩
  | .unranked e =>
    ⟨.trace, searchTarget, "heuristic unavailable, ranking by cost", [("err", e.message)]⟩
  | .expanded depth queued frontier =>
    ⟨.debug, searchTarget, "expanded proof",
      [("depth", toString depth), ("queued", toString queued), ("frontier", toString frontier)]⟩
  | .aborted explored => ⟨.info, searchTarget, "proof search aborted", [("explored", toString explored)]⟩
  | .found explored steps =>
    ⟨.info, searchTarget, "proof found",
      [("explored", toString explored), ("steps", toString steps)]⟩
  | .notFound explored boundReached =>
    ⟨.info, searchTarget, "no proof found",
      [("explored", toString explored), ("bound_reached", boolText boundReached)]⟩

def proverWarning (name : Option String) : List LogRecord :=
  match name.map ProverKind.named with
  | some (.error e) =>
    [⟨.warn, registryTarget, "using default prover",
      [("err", e.message), ("fallback", Text.quoted ProverKind.usual.name)]⟩]
  | _ => []

def strategyWarning (name : String) : List LogRecord :=
  match Strategy.named name with
  | .error e =>
    [⟨.warn, registryTarget, "using default strategy",
      [("err", e.message), ("fallback", Text.quoted Strategy.usual.name)]⟩]
  | .ok _ => []

def kindText : ProverKind → String
  | .breadthFirst => "BreadthFirst"
  | .bestFirst => "BestFirst"

def duplicatesText : DuplicatePolicy → String
  | .structural => "Structural"
  | .semantic => "Semantic"

def configText (c : Config) : String :=
  "ProverConfig \x7b kind: " ++ kindText c.kind ++ ", strategy: " ++ Text.quoted c.strategy ++
    s!", max_depth: {c.maxDepth}, max_states: {c.maxStates}, max_frontier: {c.maxFrontier}" ++
    ", duplicates: " ++ duplicatesText c.duplicates ++ " \x7d"

end SpiderDiagrams.CommandLine
