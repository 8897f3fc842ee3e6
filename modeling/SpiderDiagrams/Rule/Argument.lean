import SpiderDiagrams.Text.Quoted
import SpiderDiagrams.Zone

namespace SpiderDiagrams

structure Target where
  subgoal : Nat
  occurrence : Nat
deriving DecidableEq, Hashable, Inhabited

def Target.text (t : Target) : String := s!"#{t.subgoal}@{t.occurrence}"

inductive Argument where
  | single (t : Target)
  | multiple (ts : List Target)
  | spiderRegion (t : Target) (spider : String) (region : Region)
deriving DecidableEq, Hashable, Inhabited

inductive ArgumentKind where
  | single | multiple | spiderRegion
deriving DecidableEq

def ArgumentKind.text : ArgumentKind → String
  | single => "a single sub-diagram"
  | multiple => "multiple sub-diagrams"
  | spiderRegion => "a spider and a region"

namespace Argument

def kind : Argument → ArgumentKind
  | single _ => .single
  | multiple _ => .multiple
  | spiderRegion .. => .spiderRegion

def targets : Argument → List Target
  | single t => [t]
  | multiple ts => ts
  | spiderRegion t .. => [t]

def subgoal? (a : Argument) : Option Nat := a.targets.head?.map (·.subgoal)

def text : Argument → String
  | single t => t.text
  | multiple ts => Text.bracketed (ts.map Target.text)
  | spiderRegion t spider region =>
    s!"{t.text} spider {Text.quoted spider} in {region.size} zone(s)"

end Argument

end SpiderDiagrams
