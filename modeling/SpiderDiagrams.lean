import SpiderDiagrams.CommandLine.Log
import SpiderDiagrams.CommandLine.LogFilter
import SpiderDiagrams.CommandLine.Options
import SpiderDiagrams.CommandLine.Run
import SpiderDiagrams.Construction
import SpiderDiagrams.Diagram.Basic
import SpiderDiagrams.Diagram.Normal
import SpiderDiagrams.Diagram.Occurrence
import SpiderDiagrams.Diagram.Reader
import SpiderDiagrams.Diagram.Scan
import SpiderDiagrams.Diagram.Transform
import SpiderDiagrams.Goals
import SpiderDiagrams.Json.Basic
import SpiderDiagrams.Json.Binary64
import SpiderDiagrams.Json.Codec
import SpiderDiagrams.Json.Decode
import SpiderDiagrams.Json.Printer
import SpiderDiagrams.Json.Reader
import SpiderDiagrams.Main
import SpiderDiagrams.Operator
import SpiderDiagrams.Pattern.Basic
import SpiderDiagrams.Pattern.Mode
import SpiderDiagrams.Pattern.Reader
import SpiderDiagrams.Primary
import SpiderDiagrams.Problem
import SpiderDiagrams.Proofs.Search.Frontier
import SpiderDiagrams.Proofs.Search.Round
import SpiderDiagrams.Rule.Apply
import SpiderDiagrams.Rule.Argument
import SpiderDiagrams.Rule.Basic
import SpiderDiagrams.Rule.Candidate
import SpiderDiagrams.Search.Config
import SpiderDiagrams.Search.Frontier
import SpiderDiagrams.Search.Prover
import SpiderDiagrams.Search.Strategy
import SpiderDiagrams.SortedMap
import SpiderDiagrams.SortedSet
import SpiderDiagrams.Text.Alphabetic
import SpiderDiagrams.Text.Alphanumeric
import SpiderDiagrams.Text.CharacterSet
import SpiderDiagrams.Text.Hexadecimal
import SpiderDiagrams.Text.Hidden
import SpiderDiagrams.Text.Numeric
import SpiderDiagrams.Text.Quoted
import SpiderDiagrams.Text.Slots
import SpiderDiagrams.Text.Space
import SpiderDiagrams.Token
import SpiderDiagrams.Trace
import SpiderDiagrams.Zone
import SpiderDiagrams.Proofs.Derivation
import SpiderDiagrams.Proofs.Search.Continuation
import SpiderDiagrams.Proofs.Search.Exhaustion
import SpiderDiagrams.Proofs.Search.Listed
import SpiderDiagrams.Proofs.Diagram.Grammar
import SpiderDiagrams.Proofs.Diagram.Layout
import SpiderDiagrams.Proofs.Diagram.Acceptance
import SpiderDiagrams.Proofs.Primary
import SpiderDiagrams.Proofs.Diagram.RoundTrip
import SpiderDiagrams.Proofs.Semantics.Interpretation
import SpiderDiagrams.Proofs.Semantics.Replacement
import SpiderDiagrams.Proofs.Application
import SpiderDiagrams.Proofs.Semantics.Rules
import SpiderDiagrams.Proofs.Semantics.Soundness
import SpiderDiagrams.Proofs.Semantics.Equivalence
import SpiderDiagrams.Proofs.Search.Waiting
import SpiderDiagrams.Proofs.Search.Shortest
import SpiderDiagrams.Proofs.Preservation
import SpiderDiagrams.Proofs.Weight
import SpiderDiagrams.Proofs.Reachability
import SpiderDiagrams.Proofs.Search.Decision
import SpiderDiagrams.Proofs.Diagram.NormalForm
import SpiderDiagrams.Proofs.Diagram.Numbering
import SpiderDiagrams.Proofs.Diagram.Rewrites
import SpiderDiagrams.Proofs.Diagram.Transform
import SpiderDiagrams.Proofs.Frame
import SpiderDiagrams.Proofs.Candidates
import SpiderDiagrams.Proofs.Subgoals
import SpiderDiagrams.Proofs.Search.Resumption
import SpiderDiagrams.Proofs.Json.Text
import SpiderDiagrams.Proofs.Json.RoundTrip
import SpiderDiagrams.Proofs.Diagram.Context
import SpiderDiagrams.Proofs.Moves
import SpiderDiagrams.Proofs.Merging
import SpiderDiagrams.Proofs.Closable
import SpiderDiagrams.Proofs.Search.Semantic
import SpiderDiagrams.Proofs.Search.Counters
import SpiderDiagrams.Proofs.Search.Pruning
import SpiderDiagrams.Proofs.Search.Raising
import SpiderDiagrams.Proofs.Editing
import SpiderDiagrams.Proofs.Json.Extent
import SpiderDiagrams.Proofs.Problem
import SpiderDiagrams.Proofs.Growth
import SpiderDiagrams.Proofs.Search.Bounds
import SpiderDiagrams.Proofs.CommandLine
import SpiderDiagrams.Proofs.Diagram.Addressing
import SpiderDiagrams.Proofs.Diagram.Replacement
import SpiderDiagrams.Proofs.Semantics.Polarity
import SpiderDiagrams.Proofs.Replay
import SpiderDiagrams.Proofs.Inverses
import SpiderDiagrams.Proofs.Independence
import SpiderDiagrams.Proofs.Search.Absorption
import SpiderDiagrams.Proofs.Splitting
import SpiderDiagrams.Proofs.Parts
import SpiderDiagrams.Proofs.Diagram.Faults
import SpiderDiagrams.Proofs.Diagram.Parents
import SpiderDiagrams.Proofs.Search.Statistics
import SpiderDiagrams.Proofs.Search.Estimate
import SpiderDiagrams.Proofs.Document
import SpiderDiagrams.Proofs.Search.Machine
import SpiderDiagrams.Proofs.Search.Bookkeeping
import SpiderDiagrams.Proofs.Diagram.Words
