import SpiderDiagrams.Diagram.Occurrence

/-!
Changing a diagram from the top down. A visitor with a state of its own sees sub-diagrams parents
first, left to right, and says for each what becomes of it and whether the walk goes on. Numbers
always refer to the diagram before the walk.
-/

namespace SpiderDiagrams

inductive Action where
  /-- It stays, and its operands are visited. -/
  | descend
  /-- It stays as it is. -/
  | keep
  /-- Another diagram takes its place. -/
  | replace (d : Diagram)

/-- The answer to a visit; after `stop` nothing more is visited. -/
structure Answer where
  action : Action
  stop : Bool

/-- What a visitor is shown. The parents, innermost first, are there if the walk tracks them. -/
structure Visit where
  occurrence : Nat
  childIndex : Nat
  diagram : Diagram
  parents : Option (List Diagram)

namespace Visit

def isRoot (v : Visit) : Bool := v.occurrence == 0

def parent? (v : Visit) : Option Diagram := v.parents.bind (·.head?)

end Visit

abbrev Visitor (σ : Type) := Visit → σ → Answer × σ

/-- What a walk leaves behind: the diagram, whether it was stopped, and the visitor's state. -/
structure Walk (σ : Type) where
  diagram : Diagram
  stopped : Bool
  state : σ

namespace Diagram

variable {σ : Type}

def walk (f : Visitor σ) (d : Diagram) (occurrence childIndex : Nat)
    (parents : Option (List Diagram)) (s : σ) : Walk σ :=
  let (answer, s) := f ⟨occurrence, childIndex, d, parents⟩ s
  match answer.action with
  | .replace e => ⟨e, answer.stop, s⟩
  | .keep => ⟨d, answer.stop, s⟩
  | .descend =>
    if answer.stop then ⟨d, true, s⟩
    else match d with
    | null | primary _ => ⟨d, false, s⟩
    | negation e =>
      let w := e.walk f (occurrence + 1) 0 (parents.map (d :: ·)) s
      ⟨negation w.diagram, w.stopped, w.state⟩
    | binary c l r =>
      let v := l.walk f (occurrence + 1) 0 (parents.map (d :: ·)) s
      if v.stopped then ⟨binary c v.diagram r, true, v.state⟩
      else
        let w := r.walk f (occurrence + 1 + l.size) 1 (parents.map (d :: ·)) v.state
        ⟨binary c v.diagram w.diagram, w.stopped, w.state⟩

def transform (f : Visitor σ) (trackParents : Bool) (d : Diagram) (s : σ) : Walk σ :=
  d.walk f 0 0 (if trackParents then some [] else none) s

end Diagram

end SpiderDiagrams
