namespace SpiderDiagrams.CommandLine

structure Options where
  problem : String
  prover : Option String := none
  strategy : Option String := none
  maxDepth : Option Nat := none
  json : Bool := false
deriving DecidableEq

inductive UsageFault where
  | missingProblem
  | emptyProblem
  | extraArgument (text : String)
  | unknownOption (text : String)
  | missingValue (option : String)
  | unneededValue (option : String)
  | repeatedOption (option : String)
  | invalidNumber (text : String)
  /-- Help is wanted. -/
  | help
deriving DecidableEq

def UsageFault.message : UsageFault → String
  | missingProblem => "a problem file is required"
  | emptyProblem => "the name of the problem file is empty"
  | extraArgument text => s!"unexpected argument '{text}'"
  | unknownOption text => s!"unknown option '{text}'"
  | missingValue option => s!"option '--{option}' needs a value"
  | unneededValue option => s!"option '--{option}' takes no value"
  | repeatedOption option => s!"option '--{option}' is given twice"
  | invalidNumber text => s!"'{text}' is not a number of steps"
  | help => "sd-prove PROBLEM [--prover NAME] [--strategy NAME] [--max-depth STEPS] [--json]"

structure Draft where
  problem : Option String := none
  prover : Option String := none
  strategy : Option String := none
  maxDepth : Option Nat := none
  json : Bool := false

def number? (text : String) : Option Nat :=
  let digits := match text.toList with
    | '+' :: cs => cs
    | cs => cs
  if digits.isEmpty || !digits.all Char.isDigit then none
  else
    let n := digits.foldl (fun n c => n * 10 + (c.toNat - '0'.toNat)) 0
    if n < 0x10000000000000000 then some n else none

namespace Draft

def setProblem (d : Draft) (path : String) : Except UsageFault Draft :=
  if d.problem.isSome then .error (.extraArgument path)
  else if path.isEmpty then .error .emptyProblem
  else .ok { d with problem := some path }

def setProblems (d : Draft) : List String → Except UsageFault Draft
  | [] => .ok d
  | path :: paths => do setProblems (← d.setProblem path) paths

def takesValue? : String → Option Bool
  | "prover" | "strategy" | "max-depth" => some true
  | "json" => some false
  | _ => none

def setValue (d : Draft) (option value : String) : Except UsageFault Draft :=
  match option with
  | "prover" =>
    if d.prover.isSome then .error (.repeatedOption option) else .ok { d with prover := some value }
  | "strategy" =>
    if d.strategy.isSome then .error (.repeatedOption option)
    else .ok { d with strategy := some value }
  | "max-depth" =>
    if d.maxDepth.isSome then .error (.repeatedOption option)
    else match number? value with
    | some n => .ok { d with maxDepth := some n }
    | none => .error (.invalidNumber value)
  | _ => .error (.unknownOption option)

def setFlag (d : Draft) (option : String) : Except UsageFault Draft :=
  if option ≠ "json" then .error (.unknownOption option)
  else if d.json then .error (.repeatedOption option)
  else .ok { d with json := true }

def splitOption (cs : List Char) : String × Option String :=
  let name := String.ofList (cs.takeWhile (· ≠ '='))
  match cs.dropWhile (· ≠ '=') with
  | [] => (name, none)
  | _ :: value => (name, some (String.ofList value))

def isOption (text : String) : Bool :=
  match text.toList with
  | '-' :: _ :: _ => true
  | _ => false

/-- Reads the arguments one by one; after two dashes there are no more options. -/
def read (d : Draft) : List String → Except UsageFault Draft
  | [] => .ok d
  | text :: rest =>
    match text.toList with
    | ['-', '-'] => d.setProblems rest
    | '-' :: '-' :: cs =>
      let (option, attached) := splitOption cs
      if option = "help" ∧ attached.isNone then .error .help
      else match takesValue? option, attached with
      | none, _ => .error (.unknownOption text)
      | some true, some value => do (← d.setValue option value).read rest
      | some false, some _ => .error (.unneededValue option)
      | some false, none => do (← d.setFlag option).read rest
      | some true, none =>
        match rest with
        | [] => .error (.missingValue option)
        | value :: rest =>
          if isOption value then .error (.missingValue option)
          else do (← d.setValue option value).read rest
    | '-' :: 'h' :: _ => .error .help
    | '-' :: _ :: _ => .error (.unknownOption text)
    | _ => do (← d.setProblem text).read rest

end Draft

def Options.ofArguments (arguments : List String) : Except UsageFault Options := do
  let d ← Draft.read {} arguments
  match d.problem with
  | none => .error .missingProblem
  | some problem => return ⟨problem, d.prover, d.strategy, d.maxDepth, d.json⟩

end SpiderDiagrams.CommandLine
