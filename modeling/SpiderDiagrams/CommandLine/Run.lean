import SpiderDiagrams.CommandLine.LogFilter
import SpiderDiagrams.CommandLine.Options
import SpiderDiagrams.Problem

namespace SpiderDiagrams.CommandLine

inductive FileFault where
  | notFound
  | notADirectory
  | isDirectory
  | nameTooLong
  | permissionDenied
  | notText
  | other (message : String)

def FileFault.message : FileFault → String
  | notFound => "No such file or directory (os error 2)"
  | notADirectory => "Not a directory (os error 20)"
  | isDirectory => "Is a directory (os error 21)"
  | nameTooLong => "File name too long (os error 36)"
  | permissionDenied => "Permission denied (os error 13)"
  | notText => "stream did not contain valid UTF-8"
  | other message => message

inductive RunError where
  | file (path : String) (f : FileFault)
  | load (e : LoadError)

def RunError.message : RunError → String
  | file path f => s!"cannot read {path}: {f.message}"
  | load e => e.message

structure Output where
  exitCode : Nat
  stdout : String
  stderr : String
deriving DecidableEq

/-- The problem's settings, overridden by the options. -/
def effectiveConfig (o : Options) (p : Problem) : Config :=
  { p.config with
    kind := (o.prover.map ProverKind.namedOrUsual).getD p.config.kind
    strategy := o.strategy.getD p.config.strategy
    maxDepth := o.maxDepth.getD p.config.maxDepth }

structure Job where
  problem : Problem
  goals : Goals
  prover : Prover

def Job.load (o : Options) (text : String) : Except LoadError Job := do
  let problem ← Problem.load text
  let goals ← problem.toGoals
  let rules ← problem.toRules
  return ⟨problem, goals, .ofConfig (effectiveConfig o problem) rules⟩

/-- The search for a proof of the job's goals. A proof is marked with the problem. -/
def Job.search (t : Job) : SearchResult × List SearchEvent :=
  let (r, events) := t.prover.searchLogged ⟨t.goals.dischargeTrivial, [], ∅⟩ .never
  ({ r with proof := r.proof.map (·.annotate "problem" t.problem.id) }, events)

def Job.log (o : Options) (t : Job) (events : List SearchEvent) : List LogRecord :=
  proverWarning t.problem.prover ++ proverWarning o.prover ++
    [⟨.debug, programTarget, "prover configured",
        [("config", configText t.prover.config), ("rules", toString t.prover.rules.length)]⟩,
      ⟨.info, programTarget, "searching",
        [("problem", t.problem.id), ("subgoals", toString t.goals.length)]⟩] ++
    strategyWarning t.prover.config.strategy ++ events.map searchRecord

def statusText : SearchStatus → String
  | .proved => "Proved"
  | .exhausted => "Exhausted"
  | .aborted => "Aborted"

def resultText (id : String) (r : SearchResult) : String :=
  match r.proof with
  | some proof =>
    s!"{id}: proved in {proof.steps.length} step(s) ({r.statesExplored} states explored)\n" ++
      proof.text
  | none =>
    let reason := if r.boundReached then "search bound reached" else "search space exhausted"
    s!"{id}: no proof found, {statusText r.status} ({r.statesExplored} states explored, {reason})\n"

def decodeFile (file : Except FileFault ByteArray) : Except FileFault String := do
  match String.fromUTF8? (← file) with
  | some text => return text
  | none => .error .notText

def run (o : Options) (filter : LogFilter) (file : Except FileFault ByteArray) : Output :=
  let job : Except RunError Job := do
    let text ← (decodeFile file).mapError (.file o.problem)
    (Job.load o text).mapError .load
  match job with
  | .error e => ⟨2, "", s!"error: {e.message}\n"⟩
  | .ok t =>
    let (r, events) := t.search
    let body := if o.json then r.json.pretty ++ "\n" else resultText t.problem.id r
    ⟨if r.isProved then 0 else 1, filter.render (t.log o events) ++ body, ""⟩

end SpiderDiagrams.CommandLine
