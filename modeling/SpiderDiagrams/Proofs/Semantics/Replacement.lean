import SpiderDiagrams.Proofs.Diagram.Occurrence
import SpiderDiagrams.Proofs.Semantics.Interpretation

universe u

namespace SpiderDiagrams

/-- How the whole depends on a part of it. -/
inductive Polarity where
  | positive | negative | mixed
deriving DecidableEq

def Polarity.flip : Polarity → Polarity
  | positive => negative
  | negative => positive
  | mixed => mixed

def Connective.leftPolarity : Connective → Polarity → Polarity
  | conjunction, a | disjunction, a => a
  | implication, a => a.flip
  | equivalence, _ => .mixed

def Connective.rightPolarity : Connective → Polarity → Polarity
  | conjunction, a | disjunction, a | implication, a => a
  | equivalence, _ => .mixed

def Diagram.polarity : Diagram → Nat → Polarity
  | negation d, i + 1 => (d.polarity i).flip
  | binary c l r, i + 1 =>
    if i < l.size then c.leftPolarity (l.polarity i) else c.rightPolarity (r.polarity (i - l.size))
  | _, 0 | null, _ + 1 | primary _, _ + 1 => .positive

variable {d d' e e' : Diagram} {i : Nat}

namespace Interpretation

variable {U : Type u} {I : Interpretation U}

theorem holds_iff_of_replaceAt? (hs : d.sub? i = some e) (hr : d.replaceAt? i e' = some d')
    (h : I.Holds e' ↔ I.Holds e) : I.Holds d' ↔ I.Holds d := by
  apply Diagram.replaceAt?_induction (P := fun _ d d' => I.Holds d' ↔ I.Holds d) hs hr h
  · intro i d d' ih
    exact not_congr ih
  · intro i c l l' r _ ih
    exact c.truth_congr ih Iff.rfl
  · intro i c l r r' ih
    exact c.truth_congr Iff.rfl ih

/-- How a whole with the first truth value may change to the second where a part gets weaker. -/
def Weakens : Polarity → Prop → Prop → Prop
  | .positive, a, b => a → b
  | .negative, a, b => b → a
  | .mixed, _, _ => True

theorem weakens_flip {q : Polarity} {a b : Prop} (h : Weakens q a b) :
    Weakens q.flip (¬ a) (¬ b) := by
  cases q with
  | positive => exact fun hb ha => hb (h ha)
  | negative => exact fun ha hb => ha (h hb)
  | mixed => exact trivial

theorem weakens_between {q : Polarity} {a b : Prop} (h : Weakens q a b) (l r : Prop) :
    Weakens q (l ∧ a ∧ r) (l ∧ b ∧ r) := by
  cases q with
  | positive => exact And.imp_right (And.imp_left h)
  | negative => exact And.imp_right (And.imp_left h)
  | mixed => exact trivial

theorem weakens_left (c : Connective) {q : Polarity} {a b : Prop} (h : Weakens q a b) (r : Prop) :
    Weakens (c.leftPolarity q) (c.truth a r) (c.truth b r) := by
  cases c with
  | conjunction =>
      cases q with
      | positive => exact And.imp_left h
      | negative => exact And.imp_left h
      | mixed => exact trivial
  | disjunction =>
      cases q with
      | positive => exact Or.imp_left h
      | negative => exact Or.imp_left h
      | mixed => exact trivial
  | implication =>
      cases q with
      | positive => exact fun hbr ha => hbr (h ha)
      | negative => exact fun har hb => har (h hb)
      | mixed => exact trivial
  | equivalence => exact trivial

theorem weakens_right (c : Connective) {q : Polarity} {a b : Prop} (h : Weakens q a b) (l : Prop) :
    Weakens (c.rightPolarity q) (c.truth l a) (c.truth l b) := by
  cases c with
  | conjunction =>
      cases q with
      | positive => exact And.imp_right h
      | negative => exact And.imp_right h
      | mixed => exact trivial
  | disjunction =>
      cases q with
      | positive => exact Or.imp_right h
      | negative => exact Or.imp_right h
      | mixed => exact trivial
  | implication =>
      cases q with
      | positive => exact fun hla hl => h (hla hl)
      | negative => exact fun hlb hl => h (hlb hl)
      | mixed => exact trivial
  | equivalence => exact trivial

theorem weakens_of_replaceAt? (hs : d.sub? i = some e) (hr : d.replaceAt? i e' = some d')
    (h : I.Holds e → I.Holds e') : Weakens (d.polarity i) (I.Holds d) (I.Holds d') := by
  have hroot : Weakens (e.polarity 0) (I.Holds e) (I.Holds e') := by
    have hp : e.polarity 0 = .positive := by cases e <;> rfl
    rw [hp]
    exact h
  apply Diagram.replaceAt?_induction
    (P := fun i d d' => Weakens (d.polarity i) (I.Holds d) (I.Holds d')) hs hr hroot
  · intro i d d' ih
    exact weakens_flip ih
  · intro i c l l' r hi ih
    rw [Diagram.polarity, if_pos hi]
    exact weakens_left c ih _
  · intro i c l r r' ih
    rw [Diagram.polarity, if_neg (by omega), Nat.add_sub_cancel]
    exact weakens_right c ih _

end Interpretation

end SpiderDiagrams
