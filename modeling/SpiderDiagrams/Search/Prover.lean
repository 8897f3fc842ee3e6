import Std.Data.HashSet
import SpiderDiagrams.Rule.Candidate
import SpiderDiagrams.Search.Config
import SpiderDiagrams.Search.Frontier

namespace SpiderDiagrams

inductive SearchStatus where
  | proved | exhausted | aborted
deriving DecidableEq

structure SearchResult where
  status : SearchStatus
  proof : Option Trace
  statesExplored : Nat
  successorsGenerated : Nat
  depthReached : Nat
  boundReached : Bool
  peakFrontier : Nat
deriving DecidableEq

def SearchResult.isProved (r : SearchResult) : Bool := r.status = .proved

inductive SearchEvent where
  | rejected (rule : Rule) (argument : Argument) (e : RuleError)
  | duplicate (rule : Rule) (argument : Argument)
  | unranked (e : EstimateError)
  | expanded (depth queued frontier : Nat)
  | aborted (explored : Nat)
  | found (explored steps : Nat)
  | notFound (explored : Nat) (boundReached : Bool)
deriving DecidableEq

/-- Whether a search is called off, asked anew before each round. The answers are arbitrary; they may
depend on the number of rounds so far and of the traces that were ranked in them. -/
structure Cancellation where
  isRaised (rounds ranked : Nat) : Bool

namespace Cancellation

def never : Cancellation := ⟨fun _ _ => false⟩

/-- As soon as so many traces have been ranked, the first one included. -/
def afterRanking (count : Nat) : Cancellation := ⟨fun _ ranked => count ≤ ranked⟩

end Cancellation

/-- A prover: settings, rules in the order in which they are tried, and a strategy. -/
structure Prover where
  config : Config
  rules : List Rule
  strategy : Strategy

/-- A search under way. The latest event is the first of the log. -/
structure SearchState where
  frontier : Frontier Trace
  visited : Std.HashSet Goals
  ranked : Nat
  statesExplored : Nat
  successorsGenerated : Nat
  depthReached : Nat
  boundReached : Bool
  peakFrontier : Nat
  log : List SearchEvent

namespace SearchState

def note (s : SearchState) (e : SearchEvent) : SearchState := { s with log := e :: s.log }

/-- Every round explores one trace. -/
def isCalledOff (s : SearchState) (a : Cancellation) : Bool := a.isRaised s.statesExplored s.ranked

def finish (s : SearchState) (status : SearchStatus) (proof : Option Trace) : SearchResult where
  status := status
  proof := proof
  statesExplored := s.statesExplored
  successorsGenerated := s.successorsGenerated
  depthReached := s.depthReached
  boundReached := s.boundReached
  peakFrontier := s.peakFrontier

end SearchState

namespace Prover

/-- The prover for some settings; a strategy that is not known is replaced by the usual one. -/
def ofConfig (config : Config) (rules : List Rule) : Prover :=
  ⟨config, rules, Strategy.namedOrUsual config.strategy⟩

def usual : Prover := ofConfig {} Rule.all

variable (p : Prover)

def key (g : Goals) : Goals :=
  match p.config.duplicates with
  | .structural => g
  | .semantic => g.normalKey

def estimate (t : Trace) : Except EstimateError Nat :=
  match p.config.kind with
  | .breadthFirst => .ok 0
  | .bestFirst => p.strategy.estimate t.current

/-- A trace without an estimate is ranked by its cost. -/
def rank (t : Trace) : Nat :=
  match p.estimate t with
  | .ok n => t.cost + n
  | .error _ => t.cost

def enqueue (t : Trace) (s : SearchState) : SearchState :=
  let s := match p.estimate t with
    | .ok _ => s
    | .error e => s.note (.unranked e)
  { s with frontier := s.frontier.push (p.rank t) t, ranked := s.ranked + 1 }

def consider (t : Trace) (s : SearchState) (subgoal : Nat) (c : Candidate) : SearchState :=
  let argument := c.argument subgoal
  match c.rule.apply argument t.current with
  | .error e => s.note (.rejected c.rule argument e)
  | .ok goals =>
    let s := { s with successorsGenerated := s.successorsGenerated + 1 }
    if s.visited.contains (p.key goals) then s.note (.duplicate c.rule argument)
    else if p.config.maxFrontier ≤ s.frontier.size then { s with boundReached := true }
    else p.enqueue (t.push ⟨c.rule.name, argument, .automatic⟩ goals)
      { s with visited := s.visited.insert (p.key goals) }

def expand (t : Trace) (depth : Nat) (s : SearchState) : SearchState :=
  let r := (t.current.candidates p.rules).foldl (fun s (i, c) => p.consider t s i c) s
  { r with peakFrontier := max r.peakFrontier r.frontier.size }.note
    (.expanded depth (r.ranked - s.ranked) r.frontier.size)

def explore (base : Nat) (t : Trace) (s : SearchState) : SearchState :=
  let depth := t.steps.length - base
  let s := { s with
    statesExplored := s.statesExplored + 1
    depthReached := max s.depthReached depth }
  if p.config.maxDepth ≤ depth then { s with boundReached := true } else p.expand t depth s

def start (seed : Trace) : SearchState :=
  let s := p.enqueue seed
    { frontier := .empty, visited := .ofList (seed.states.map p.key), ranked := 0,
      statesExplored := 0, successorsGenerated := 0, depthReached := 0, boundReached := false,
      peakFrontier := 0, log := [] }
  { s with peakFrontier := s.frontier.size }

/-- Searches on, exploring at most so many traces. -/
def run (base : Nat) (cancellation : Cancellation) :
    Nat → SearchState → SearchResult × List SearchEvent
  | n, s =>
    if s.isCalledOff cancellation then
      (s.finish .aborted none, .aborted s.statesExplored :: s.log)
    else match s.frontier.pop? with
    | none => (s.finish .exhausted none, .notFound s.statesExplored s.boundReached :: s.log)
    | some (t, frontier) =>
      if t.isFinished then
        (s.finish .proved t, .found s.statesExplored t.steps.length :: s.log)
      else match n with
      | 0 =>
        ({ s with boundReached := true }.finish .exhausted none,
          .notFound s.statesExplored true :: s.log)
      | n + 1 => run base cancellation n (p.explore base t { s with frontier })

def searchLogged (seed : Trace) (cancellation : Cancellation) : SearchResult × List SearchEvent :=
  let (r, log) := p.run seed.steps.length cancellation p.config.maxStates (p.start seed)
  (r, log.reverse)

def search (seed : Trace) (cancellation : Cancellation) : SearchResult :=
  (p.searchLogged seed cancellation).1

def prove (g : Goals) : SearchResult := p.search ⟨g.dischargeTrivial, [], ∅⟩ .never

def extend (t : Trace) : Trace := (p.search t .never).proof.getD t

end Prover

end SpiderDiagrams
