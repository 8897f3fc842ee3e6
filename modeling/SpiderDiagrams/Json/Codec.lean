import SpiderDiagrams.Diagram.Reader
import SpiderDiagrams.Json.Decode
import SpiderDiagrams.Json.Printer
import SpiderDiagrams.Json.Reader
import SpiderDiagrams.Search.Prover

namespace SpiderDiagrams

open Decoder (Field)

def NameSet.json (s : NameSet) : Json := .strings s.toList

def NameSet.decoder : Decoder NameSet := fun j => (Decoder.list Decoder.string j).map .ofList

namespace Zone

def json (z : Zone) : Json :=
  .record [("in_contours", NameSet.json z.inside), ("out_contours", NameSet.json z.outside)]

def decoder : Decoder Zone :=
  .record "struct Zone" [
    .required "in_contours" NameSet.decoder fun z s => { z with inside := s },
    .required "out_contours" NameSet.decoder fun z s => { z with outside := s }] ⟨∅, ∅⟩

end Zone

def Region.json (r : Region) : Json := .list (r.toList.map Zone.json)

def Region.decoder : Decoder Region := fun j => (Decoder.list Zone.decoder j).map .ofList

namespace Operator

def label : Operator → String
  | negation => "Negation"
  | binary .conjunction => "Conjunction"
  | binary .disjunction => "Disjunction"
  | binary .implication => "Implication"
  | binary .equivalence => "Equivalence"

def json (op : Operator) : Json := .string op.label

def decoder : Decoder Operator := .enumeration (all.map fun op => (op.label, op))

end Operator

namespace Diagram

def json (d : Diagram) : Json := .string d.text

def decoder : Decoder Diagram := Decoder.string.checked fun s => (read s).mapError (·.message)

end Diagram

namespace Goals

def json (g : Goals) : Json := .list (g.map Diagram.json)

def decoder : Decoder Goals := .list Diagram.decoder

end Goals

namespace Target

def json (t : Target) : Json := .record [("subgoal", .nat t.subgoal), ("occurrence", .nat t.occurrence)]

def decoder : Decoder Target :=
  .record "struct SubDiagramIndex" [
    .required "subgoal" .nat fun t n => { t with subgoal := n },
    .required "occurrence" .nat fun t n => { t with occurrence := n }] ⟨0, 0⟩

end Target

def ArgumentKind.label : ArgumentKind → String
  | single => "SubDiagram"
  | multiple => "Multiple"
  | spiderRegion => "SpiderRegion"

namespace Argument

def json : Argument → Json
  | single t => .record [("SubDiagram", t.json)]
  | multiple ts => .record [("Multiple", .list (ts.map Target.json))]
  | spiderRegion t spider region =>
    .record [("SpiderRegion", .record [
      ("target", t.json), ("spider", .string spider), ("region", region.json)])]

structure RegionParts where
  target : Target
  spider : String
  region : Region

def regionPartsDecoder : Decoder RegionParts :=
  .record "struct variant RuleArg::SpiderRegion" [
    .required "target" Target.decoder fun p t => { p with target := t },
    .required "spider" .string fun p s => { p with spider := s },
    .required "region" Region.decoder fun p r => { p with region := r }] ⟨⟨0, 0⟩, "", ∅⟩

def decoder : Decoder Argument :=
  .oneOf [
    ("SubDiagram", .payload "newtype variant" fun j => (Target.decoder j).map single),
    ("Multiple", .payload "newtype variant" fun j => (Decoder.list Target.decoder j).map multiple),
    ("SpiderRegion", .payload "struct variant" fun j =>
      (regionPartsDecoder j).map fun p => spiderRegion p.target p.spider p.region)]

end Argument

namespace ApplicationKind

def all : List ApplicationKind := [interactive, automatic, tactic]

def label : ApplicationKind → String
  | interactive => "interactive"
  | automatic => "automatic"
  | tactic => "tactic"

def json (k : ApplicationKind) : Json := .string k.label

def decoder : Decoder ApplicationKind := .enumeration (all.map fun k => (k.label, k))

end ApplicationKind

namespace Application

def json (a : Application) : Json :=
  .record [("rule_id", .string a.ruleName), ("arg", a.argument.json), ("kind", a.kind.json)]

def decoder : Decoder Application :=
  .record "struct RuleApplication" [
    .required "rule_id" .string fun a s => { a with ruleName := s },
    .required "arg" Argument.decoder fun a x => { a with argument := x },
    .required "kind" ApplicationKind.decoder fun a k => { a with kind := k }]
    ⟨"", .multiple [], .interactive⟩

end Application

def TraceRecord.decoder : Decoder TraceRecord :=
  .record "struct RawProofTrace" [
    .required "goals" (.list Goals.decoder) fun r gs => { r with states := gs },
    .required "applications" (.list Application.decoder) fun r as => { r with applications := as },
    .defaulted "metadata" (.map .string) fun r m => { r with metadata := m }] ⟨[], [], ∅⟩

inductive TraceLoadError where
  | json (f : JsonFault)
  | trace (e : TraceError)

def TraceLoadError.message : TraceLoadError → String
  | json f => s!"JSON serialization error: {f.message}"
  | trace e => e.message

namespace Trace

def metadataJson (m : SortedMap String String) : List (String × Json) :=
  if m.isEmpty then []
  else [("metadata", .record (m.entries.map fun (k, v) => (k, .string v)))]

def json (t : Trace) : Json :=
  .record ([("goals", .list (t.states.map Goals.json)),
    ("applications", .list (t.applications.map Application.json))] ++ metadataJson t.metadata)

def decoder : Decoder Trace := TraceRecord.decoder.checked fun r => r.trace.mapError (·.message)

def load (text : String) : Except TraceLoadError Trace := do
  let r ← (TraceRecord.decoder.decode (Json.read text)).mapError .json
  r.trace.mapError .trace

end Trace

namespace Statistics

def json (s : Statistics) : Json :=
  .record [("num_steps", .nat s.steps), ("max_subgoals", .nat s.maxSubgoals),
    ("open_subgoals", .nat s.openSubgoals), ("finished", .bool s.finished),
    ("rules_used", .record (s.rulesUsed.entries.map fun (k, n) => (k, .nat n)))]

def decoder : Decoder Statistics :=
  .record "struct ProofStatistics" [
    .required "num_steps" .nat fun s n => { s with steps := n },
    .required "max_subgoals" .nat fun s n => { s with maxSubgoals := n },
    .required "open_subgoals" .nat fun s n => { s with openSubgoals := n },
    .required "finished" .bool fun s b => { s with finished := b },
    .required "rules_used" (.map .nat) fun s m => { s with rulesUsed := m }] ⟨0, 0, 0, false, ∅⟩

end Statistics

namespace ProverKind

def json (k : ProverKind) : Json := .string k.name

def decoder : Decoder ProverKind := .enumeration (all.map fun k => (k.name, k))

end ProverKind

namespace DuplicatePolicy

def all : List DuplicatePolicy := [structural, semantic]

def label : DuplicatePolicy → String
  | structural => "structural"
  | semantic => "semantic"

def json (p : DuplicatePolicy) : Json := .string p.label

def decoder : Decoder DuplicatePolicy := .enumeration (all.map fun p => (p.label, p))

end DuplicatePolicy

namespace Config

def json (c : Config) : Json :=
  .record [("kind", c.kind.json), ("strategy", .string c.strategy), ("max_depth", .nat c.maxDepth),
    ("max_states", .nat c.maxStates), ("max_frontier", .nat c.maxFrontier),
    ("duplicates", c.duplicates.json)]

def decoder : Decoder Config :=
  .record "struct ProverConfig" [
    .defaulted "kind" ProverKind.decoder fun c k => { c with kind := k },
    .defaulted "strategy" .string fun c s => { c with strategy := s },
    .defaulted "max_depth" .nat fun c n => { c with maxDepth := n },
    .defaulted "max_states" .nat fun c n => { c with maxStates := n },
    .defaulted "max_frontier" .nat fun c n => { c with maxFrontier := n },
    .defaulted "duplicates" DuplicatePolicy.decoder fun c p => { c with duplicates := p }] {}

end Config

namespace SearchStatus

def all : List SearchStatus := [proved, exhausted, aborted]

def label : SearchStatus → String
  | proved => "proved"
  | exhausted => "exhausted"
  | aborted => "aborted"

def json (s : SearchStatus) : Json := .string s.label

def decoder : Decoder SearchStatus := .enumeration (all.map fun s => (s.label, s))

end SearchStatus

namespace SearchResult

def json (r : SearchResult) : Json :=
  .record [("status", r.status.json), ("proof", (r.proof.map Trace.json).getD .null),
    ("states_explored", .nat r.statesExplored), ("successors_generated", .nat r.successorsGenerated),
    ("depth_reached", .nat r.depthReached), ("bound_reached", .bool r.boundReached),
    ("peak_frontier", .nat r.peakFrontier)]

def decoder : Decoder SearchResult :=
  .record "struct SearchResult" [
    .required "status" SearchStatus.decoder fun r s => { r with status := s },
    .nullable "proof" Trace.decoder fun r t => { r with proof := t },
    .required "states_explored" .nat fun r n => { r with statesExplored := n },
    .required "successors_generated" .nat fun r n => { r with successorsGenerated := n },
    .required "depth_reached" .nat fun r n => { r with depthReached := n },
    .required "bound_reached" .bool fun r b => { r with boundReached := b },
    .defaulted "peak_frontier" .nat fun r n => { r with peakFrontier := n }]
    ⟨.proved, none, 0, 0, 0, false, 0⟩

end SearchResult

end SpiderDiagrams
