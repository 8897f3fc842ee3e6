import SpiderDiagrams.Diagram.Basic

namespace SpiderDiagrams.Diagram

/-- The normal form: trivial primary diagrams are null, no negation stands directly below another,
and the operands of an operator that allows it are in the order of their texts. -/
def normalize : Diagram → Diagram
  | null => null
  | primary p => if p.isTrivial then null else primary p
  | negation d => match d.normalize with
    | negation e => e
    | e => negation e
  | binary c l r =>
    let l := l.normalize
    let r := r.normalize
    if c.isCommutative ∧ r.text < l.text then binary c r l else binary c l r

def Equivalent (a b : Diagram) : Prop := a.normalize = b.normalize

instance (a b : Diagram) : Decidable (a.Equivalent b) := inferInstanceAs (Decidable (_ = _))

end SpiderDiagrams.Diagram
