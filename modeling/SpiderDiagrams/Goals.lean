import SpiderDiagrams.Diagram.Normal

namespace SpiderDiagrams

abbrev Goals := List Diagram

namespace Goals

def dischargeTrivial (g : Goals) : Goals := g.filter (!·.isTrivial)

/-- Puts diagrams in place of one subgoal; trivial ones need no place. -/
def replaceSubgoal? (g : Goals) (i : Nat) (successors : List Diagram) : Option Goals :=
  if i < g.length then some (g.take i ++ dischargeTrivial successors ++ g.drop (i + 1)) else none

def normalKey (g : Goals) : Goals := g.map Diagram.normalize

def connectives (g : Goals) : Nat := g.foldr (·.connectives + ·) 0

def text (g : Goals) : String :=
  if g.isEmpty then "(no subgoals)"
  else "\n".intercalate (g.zipIdx.map fun (d, i) => s!"#{i}: {d.text}")

end Goals

end SpiderDiagrams
