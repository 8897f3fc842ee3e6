import SpiderDiagrams.Proofs.Semantics.Rules

universe u

namespace SpiderDiagrams

/-- The polarity of a place in a part that has the first polarity. -/
def Polarity.compose : Polarity → Polarity → Polarity
  | positive, q => q
  | negative, q => q.flip
  | mixed, _ => mixed

namespace Polarity

theorem flip_compose (p q : Polarity) : (p.compose q).flip = p.flip.compose q := by
  cases p <;> cases q <;> rfl

theorem leftPolarity_compose (c : Connective) (p q : Polarity) :
    c.leftPolarity (p.compose q) = (c.leftPolarity p).compose q := by
  cases c <;> cases p <;> cases q <;> rfl

theorem rightPolarity_compose (c : Connective) (p q : Polarity) :
    c.rightPolarity (p.compose q) = (c.rightPolarity p).compose q := by
  cases c <;> cases p <;> cases q <;> rfl

end Polarity

namespace Diagram

variable {d e l r : Diagram} {i j : Nat} {q : Polarity} {c : Connective}

theorem polarity_zero (d : Diagram) : d.polarity 0 = .positive := by
  cases d <;> rfl

theorem polarity_left (hi : i < l.size) :
    (binary c l r).polarity (i + 1) = c.leftPolarity (l.polarity i) := by
  rw [polarity, if_pos hi]

theorem polarity_right (c : Connective) (l r : Diagram) (i : Nat) :
    (binary c l r).polarity (l.size + i + 1) = c.rightPolarity (r.polarity i) := by
  rw [polarity, if_neg (by omega), Nat.add_sub_cancel_left]

theorem polarity_add (hs : d.sub? i = some e) (hj : j < e.size) :
    d.polarity (i + j) = (d.polarity i).compose (e.polarity j) := by
  apply sub?_induction
    (P := fun i d => d.polarity (i + j) = (d.polarity i).compose (e.polarity j)) hs
  · rw [Nat.zero_add, polarity_zero]
    rfl
  · intro i d ih
    rw [Nat.add_right_comm, polarity, polarity, ih, Polarity.flip_compose]
  · intro i c l r hl ih
    have hle := add_size_le hl
    rw [Nat.add_right_comm, polarity_left (by omega), polarity_left (by omega), ih,
      Polarity.leftPolarity_compose]
  · intro i c l r ih
    rw [Nat.add_right_comm, Nat.add_assoc l.size, polarity_right, polarity_right, ih,
      Polarity.rightPolarity_compose]

/-- The polarity of a place, found from the root down: the root is positive, negations and premises
of implications turn the polarity round, the other connectives keep it, and below an equivalence
there is none. -/
inductive HasPolarity (d : Diagram) : Nat → Polarity → Prop
  | root : d.HasPolarity 0 .positive
  | negation {i : Nat} {q : Polarity} {e : Diagram} (h : d.HasPolarity i q)
      (hs : d.sub? i = some (.negation e)) : d.HasPolarity (i + 1) q.flip
  | left {i : Nat} {q : Polarity} {c : Connective} {l r : Diagram} (h : d.HasPolarity i q)
      (hs : d.sub? i = some (.binary c l r)) : d.HasPolarity (i + 1) (c.leftPolarity q)
  | right {i : Nat} {q : Polarity} {c : Connective} {l r : Diagram} (h : d.HasPolarity i q)
      (hs : d.sub? i = some (.binary c l r)) : d.HasPolarity (i + (l.size + 1)) (c.rightPolarity q)

theorem polarity_of_negation (hs : d.sub? i = some (.negation e)) :
    d.polarity (i + 1) = (d.polarity i).flip := by
  rw [polarity_add hs (Nat.succ_lt_succ e.size_pos), polarity, polarity_zero]
  cases d.polarity i <;> rfl

theorem polarity_of_left (hs : d.sub? i = some (.binary c l r)) :
    d.polarity (i + 1) = c.leftPolarity (d.polarity i) := by
  rw [polarity_add hs (Nat.succ_lt_succ (Nat.add_pos_left l.size_pos _)),
    polarity_left l.size_pos, polarity_zero]
  cases c <;> cases d.polarity i <;> rfl

theorem polarity_of_right (hs : d.sub? i = some (.binary c l r)) :
    d.polarity (i + (l.size + 1)) = c.rightPolarity (d.polarity i) := by
  rw [polarity_add hs (Nat.succ_lt_succ (Nat.lt_add_of_pos_right r.size_pos)),
    polarity_right c l r 0, polarity_zero]
  cases c <;> cases d.polarity i <;> rfl

theorem HasPolarity.polarity_eq (h : d.HasPolarity i q) : d.polarity i = q := by
  induction h with
  | root => exact polarity_zero d
  | negation _ hs ih => rw [polarity_of_negation hs, ih]
  | left _ hs ih => rw [polarity_of_left hs, ih]
  | right _ hs ih => rw [polarity_of_right hs, ih]

theorem HasPolarity.descend (hs : d.sub? i = some e) (h : d.HasPolarity i (d.polarity i))
    (hij : i ≤ j) (hj : j < i + e.size) : d.HasPolarity j (d.polarity j) := by
  induction e generalizing i with
  | null | primary =>
      rw [size] at hj
      obtain rfl : j = i := by omega
      exact h
  | negation e ih =>
      rcases Nat.eq_or_lt_of_le hij with rfl | hlt
      · exact h
      have hp := h.negation hs
      rw [← polarity_of_negation hs] at hp
      rw [size] at hj
      exact ih (sub?_of_negation hs) hp hlt (by omega)
  | binary c l r ihl ihr =>
      rcases Nat.eq_or_lt_of_le hij with rfl | hlt
      · exact h
      rw [size] at hj
      by_cases hl : j < i + 1 + l.size
      · have hp := h.left hs
        rw [← polarity_of_left hs] at hp
        exact ihl (sub?_of_left hs) hp hlt hl
      · have hp := h.right hs
        rw [← polarity_of_right hs] at hp
        exact ihr (sub?_of_right hs) hp (by omega) (by omega)

theorem hasPolarity_iff : d.HasPolarity i q ↔ i < d.size ∧ d.polarity i = q := by
  constructor
  · intro h
    refine ⟨?_, h.polarity_eq⟩
    cases h with
    | root => exact d.size_pos
    | negation _ hs => exact lt_size_of_sub? (sub?_of_negation hs)
    | left _ hs => exact lt_size_of_sub? (sub?_of_left hs)
    | right _ hs => exact lt_size_of_sub? (sub?_of_right hs)
  · rintro ⟨hi, rfl⟩
    have hroot : d.HasPolarity 0 (d.polarity 0) := by
      rw [polarity_zero]
      exact .root
    exact hroot.descend d.sub?_zero (Nat.zero_le i) (by omega)

end Diagram

namespace Rule

/-- A conjunction is eliminated at a place with one polarity. If it is negative, the goals before hold
wherever those after it do, and if it is positive, those after it wherever those before it do. -/
theorem eliminate_by_polarity {a : Argument} {g h : Goals}
    (ha : conjunctionElimination.apply a g = .ok h) :
    ∃ t kept d, a = .multiple [t, kept] ∧ g[t.subgoal]? = some d ∧
      (∃ q, ∀ q', d.HasPolarity t.occurrence q' ↔ q' = q) ∧
      ∀ (U : Type u) (I : Interpretation U),
        (d.HasPolarity t.occurrence .negative → I.Hold h → I.Hold g) ∧
          (d.HasPolarity t.occurrence .positive → I.Hold g → I.Hold h) := by
  cases applies_of_apply ha with
  | @eliminate t kept e e' _ ht he hr =>
      have ⟨d, _, hd, hs, _⟩ := hr
      have hi := Diagram.lt_size_of_sub? hs
      refine ⟨t, kept, d, rfl, hd, ⟨d.polarity t.occurrence, ?_⟩, ?_⟩
      · intro q
        rw [Diagram.hasPolarity_iff, and_iff_right hi, eq_comm]
      · intro U I
        have hkept : I.Holds e → I.Holds e' := Interpretation.holds_keepOperand he
        have hw := Interpretation.weakens_of_rewritten hr hd hkept
        constructor
        · intro hq
          rwa [hq.polarity_eq] at hw
        · intro hq
          rwa [hq.polarity_eq] at hw
  | replace hf => cases hf

theorem eliminate_by_polarity_premise :
    let c : Diagram := .binary .conjunction .null (.negation .null)
    let d : Diagram := .binary .implication c .null
    let d' : Diagram := .binary .implication (.negation .null) .null
    (conjunctionElimination.apply (.multiple [⟨0, 1⟩, ⟨0, 3⟩]) [d] = .ok [d'] ∧
      d.HasPolarity 1 .negative ∧
      ∀ (U : Type u) (I : Interpretation U), I.Hold [d'] → I.Hold [d]) ∧
    conjunctionElimination.apply (.multiple [⟨0, 2⟩, ⟨0, 4⟩]) [.negation d] = .ok [.negation d'] ∧
      (Diagram.negation d).HasPolarity 2 .positive ∧
      ∀ (U : Type u) (I : Interpretation U), I.Hold [.negation d] → I.Hold [.negation d'] := by
  intro c d d'
  have hstep : conjunctionElimination.apply (.multiple [⟨0, 1⟩, ⟨0, 3⟩]) [d] = .ok [d'] := rfl
  have hstep' : conjunctionElimination.apply (.multiple [⟨0, 2⟩, ⟨0, 4⟩]) [.negation d] =
      .ok [.negation d'] := rfl
  have hq : d.HasPolarity 1 .negative := .left (c := .implication) .root rfl
  have hq' : (Diagram.negation d).HasPolarity 2 .positive :=
    .left (c := .implication) (q := .negative) (.negation .root rfl) rfl
  refine ⟨⟨hstep, hq, ?_⟩, hstep', hq', ?_⟩
  · obtain ⟨t, kept, e, ha, hd, _, hold⟩ := eliminate_by_polarity hstep
    cases ha
    cases hd
    exact fun U I => (hold U I).1 hq
  · obtain ⟨t, kept, e, ha, hd, _, hold⟩ := eliminate_by_polarity hstep'
    cases ha
    cases hd
    exact fun U I => (hold U I).2 hq'

end Rule

end SpiderDiagrams
