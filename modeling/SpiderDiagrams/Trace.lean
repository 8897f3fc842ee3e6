import SpiderDiagrams.Rule.Apply

namespace SpiderDiagrams

inductive ApplicationKind where
  | interactive | automatic | tactic
deriving DecidableEq, Hashable

/-- A recorded application. Its rule is known by name only. -/
structure Application where
  ruleName : String
  argument : Argument
  kind : ApplicationKind
deriving DecidableEq

def Application.text (a : Application) : String := s!"{a.ruleName} {a.argument.text}"

structure Step where
  application : Application
  goals : Goals
deriving DecidableEq

/-- The steps are listed from the latest back. -/
structure Trace where
  initial : Goals
  steps : List Step := []
  metadata : SortedMap String String := ∅
deriving DecidableEq

inductive TraceError where
  | stateCount (states applications : Nat)
  | unknownRule (name : String)
  | stepFails (step : Nat) (e : RuleError)
  | stepDiffers (step : Nat)
deriving DecidableEq

def TraceError.message : TraceError → String
  | stateCount states applications =>
    s!"Invalid proof trace: {states} goal states for {applications} applications"
  | unknownRule name => s!"Unknown rule in proof: {name}"
  | stepFails step e => s!"Step {step} does not replay: {e.message}"
  | stepDiffers step => s!"Step {step} does not replay: rule produced different goals"

structure Statistics where
  steps : Nat
  maxSubgoals : Nat
  openSubgoals : Nat
  finished : Bool
  rulesUsed : SortedMap String Nat
deriving DecidableEq

namespace Trace

def current (t : Trace) : Goals :=
  match t.steps with
  | [] => t.initial
  | s :: _ => s.goals

def states (t : Trace) : List Goals := t.initial :: (t.steps.map (·.goals)).reverse

def applications (t : Trace) : List Application := (t.steps.map (·.application)).reverse

def isFinished (t : Trace) : Bool := t.current.isEmpty

def push (t : Trace) (a : Application) (g : Goals) : Trace := { t with steps := ⟨a, g⟩ :: t.steps }

def apply (t : Trace) (rule : Rule) (argument : Argument) (kind : ApplicationKind) :
    Except RuleError Trace :=
  (rule.apply argument t.current).map (t.push ⟨rule.name, argument, kind⟩)

def undo? (t : Trace) : Option Trace :=
  match t.steps with
  | [] => none
  | _ :: steps => some { t with steps }

def annotate (t : Trace) (key value : String) : Trace :=
  { t with metadata := t.metadata.insert key value }

/-- The trace with the given goals and the applications between them. -/
def ofStates (states : List Goals) (applications : List Application)
    (metadata : SortedMap String String) : Except TraceError Trace :=
  match states with
  | g :: gs =>
    if gs.length = applications.length then
      .ok ⟨g, ((applications.zip gs).map fun (a, g) => ⟨a, g⟩).reverse, metadata⟩
    else .error (.stateCount states.length applications.length)
  | [] => .error (.stateCount 0 applications.length)

/-- Applies the steps, earliest first, with the given number and goals for the first of them. -/
def replay (rules : List Rule) : Nat → Goals → List Step → Except TraceError Unit
  | _, _, [] => .ok ()
  | i, g, s :: steps =>
    match rules.find? (·.name = s.application.ruleName) with
    | none => .error (.unknownRule s.application.ruleName)
    | some rule =>
      match rule.apply s.application.argument g with
      | .error e => .error (.stepFails i e)
      | .ok h => if h = s.goals then replay rules (i + 1) s.goals steps else .error (.stepDiffers i)

def verify (t : Trace) (rules : List Rule) : Except TraceError Unit :=
  replay rules 0 t.initial t.steps.reverse

def ruleCounts (t : Trace) : SortedMap String Nat :=
  t.applications.foldl (fun m a => m.insert a.ruleName ((m.get? a.ruleName).getD 0 + 1)) ∅

def statistics (t : Trace) : Statistics where
  steps := t.steps.length
  maxSubgoals := (t.states.map List.length).foldl max 0
  openSubgoals := t.current.length
  finished := t.isFinished
  rulesUsed := t.ruleCounts

def text (t : Trace) : String :=
  let lines := t.steps.reverse.flatMap fun s => ["  by " ++ s.application.text, s.goals.text]
  String.join ((t.initial.text :: lines).map (· ++ "\n"))

end Trace

/-- A trace as two lists: the goals, the initial ones first, and the applications that lead from each
to the next. Nothing makes one list as long as the other asks for. -/
structure TraceRecord where
  states : List Goals
  applications : List Application
  metadata : SortedMap String String
deriving DecidableEq

def Trace.record (t : Trace) : TraceRecord := ⟨t.states, t.applications, t.metadata⟩

namespace TraceRecord

def new (g : Goals) : TraceRecord := ⟨[g], [], ∅⟩

def trace (r : TraceRecord) : Except TraceError Trace :=
  Trace.ofStates r.states r.applications r.metadata

def current? (r : TraceRecord) : Option Goals := r.states.getLast?

def push (r : TraceRecord) (a : Application) (g : Goals) : TraceRecord :=
  { r with states := r.states ++ [g], applications := r.applications ++ [a] }

/-- Without any goals there is nothing that the rule could be applied to. -/
def applied? (r : TraceRecord) (rule : Rule) (argument : Argument) (kind : ApplicationKind) :
    Option (Except RuleError TraceRecord) :=
  r.current?.map fun g => (rule.apply argument g).map (r.push ⟨rule.name, argument, kind⟩)

def undo? (r : TraceRecord) : Option TraceRecord :=
  if r.applications.isEmpty then none
  else some { r with states := r.states.dropLast, applications := r.applications.dropLast }

def annotate (r : TraceRecord) (key value : String) : TraceRecord :=
  { r with metadata := r.metadata.insert key value }

/-- Makes the applications from one with the given number on, each on the goals with its number. There
is no answer if goals that have to be looked at are missing. -/
def replay? (rules : List Rule) (states : List Goals) :
    Nat → List Application → Option (Except TraceError Unit)
  | _, [] => some (.ok ())
  | i, a :: as =>
    match rules.find? (·.name = a.ruleName) with
    | none => some (.error (.unknownRule a.ruleName))
    | some rule => do
      match rule.apply a.argument (← states[i]?) with
      | .error e => return .error (.stepFails i e)
      | .ok h =>
        if h = (← states[i + 1]?) then replay? rules states (i + 1) as
        else return .error (.stepDiffers i)

def verify? (r : TraceRecord) (rules : List Rule) : Option (Except TraceError Unit) :=
  replay? rules r.states 0 r.applications

end TraceRecord

/-- The rule that was used most often; of several, the last one by name. -/
def Statistics.mostUsed (s : Statistics) : Option (String × Nat) :=
  s.rulesUsed.entries.foldl (fun best e =>
    match best with
    | some b => if b.2 ≤ e.2 then some e else some b
    | none => some e) none

end SpiderDiagrams
