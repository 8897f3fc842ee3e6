import SpiderDiagrams.Proofs.Diagram.Transform

namespace SpiderDiagrams

def Visitor.collector : Visitor (List Occurrence) := fun v found =>
  (⟨.descend, false⟩, found ++ [⟨v.occurrence, v.diagram⟩])

theorem Visit.walk_collector (v : Visit) (found : List Occurrence) :
    v.walk .collector found =
      ⟨v.diagram, false, found ++ v.diagram.occurrencesFrom v.occurrence⟩ := by
  obtain ⟨o, k, d, ps⟩ := v
  induction d generalizing o k ps found with
  | null | primary => exact walk_of_keep (.inr ⟨rfl, .inr rfl⟩)
  | negation d ih =>
      rw [walk_of_negation rfl rfl rfl, operand, ih]
      simp [Visitor.collector, Diagram.occurrencesFrom]
  | binary c l r ihl ihr =>
      rw [walk_of_binary rfl rfl rfl, operand, ihl]
      dsimp only
      rw [if_neg Bool.false_ne_true, operand, ihr]
      simp [Visitor.collector, Diagram.occurrencesFrom]

theorem Occurrence.map_diagram_operands (o : Occurrence) :
    o.operands.map (·.diagram) = o.diagram.operands := by
  obtain ⟨i, d⟩ := o
  cases d <;> rfl

namespace Diagram

variable {d e : Diagram} {i : Nat}

theorem transform_collector (d : Diagram) (trackParents : Bool) :
    d.transform .collector trackParents [] = ⟨d, false, d.occurrences⟩ :=
  Visit.walk_collector ⟨0, 0, d, _⟩ []

theorem length_occurrencesFrom (d : Diagram) (k : Nat) : (d.occurrencesFrom k).length = d.size := by
  induction d generalizing k with
  | null | primary => rfl
  | negation d ih => rw [occurrencesFrom, List.length_cons, ih, size]
  | binary c l r ihl ihr =>
      rw [occurrencesFrom, List.length_append, List.length_cons, ihl, ihr, size,
        Nat.add_right_comm]

theorem getElem?_occurrencesFrom (d : Diagram) (k i : Nat) :
    (d.occurrencesFrom k)[i]? = (d.sub? i).map (⟨k + i, ·⟩) := by
  induction d generalizing k i with
  | null | primary => cases i <;> rfl
  | negation d ih =>
      cases i with
      | zero => rfl
      | succ i =>
          rw [occurrencesFrom, List.getElem?_cons_succ, ih, Nat.add_assoc, Nat.add_comm 1]
          rfl
  | binary c l r ihl ihr =>
      cases i with
      | zero => rfl
      | succ i =>
          rw [occurrencesFrom, List.cons_append, List.getElem?_cons_succ, List.getElem?_append,
            length_occurrencesFrom, sub?]
          by_cases hi : i < l.size
          · rw [if_pos hi, if_pos hi, ihl, Nat.add_assoc, Nat.add_comm 1]
          · have hk : k + 1 + l.size + (i - l.size) = k + (i + 1) := by omega
            rw [if_neg hi, if_neg hi, ihr, hk]

theorem getElem?_occurrences (d : Diagram) (i : Nat) : d.occurrences[i]? = d.occurrence? i := by
  rw [occurrences, getElem?_occurrencesFrom, Nat.zero_add]
  rfl

theorem map_occurrence?_operandOffsets (hs : d.sub? i = some e) :
    e.operandOffsets.map (fun k => d.occurrence? (i + k)) =
      (Occurrence.mk i e).operands.map some := by
  cases e with
  | null | primary => rfl
  | negation e =>
      simp [operandOffsets, Occurrence.operands, operands, occurrence?, sub?_of_negation hs]
  | binary c l r =>
      simp [operandOffsets, Occurrence.operands, operands, occurrence?, sub?_of_left hs,
        sub?_of_right hs]

theorem connectives_eq_countP (d : Diagram) (k : Nat) :
    d.connectives = (d.occurrencesFrom k).countP (·.diagram.operator?.isSome) := by
  induction d generalizing k with
  | null | primary => rfl
  | negation d ih =>
      rw [connectives, ih (k + 1), occurrencesFrom, List.countP_cons_of_pos]
      rfl
  | binary c l r ihl ihr =>
      rw [connectives, ihl (k + 1), ihr (k + 1 + l.size), occurrencesFrom, List.cons_append,
        List.countP_cons_of_pos, List.countP_append]
      rfl

/-- The list of sub-diagrams is what a walk collects, and its length is the size. At each number
below the size, and at no other, there is a sub-diagram, which the list has at this position; its own
sub-diagrams have the numbers that follow, within the size, and its operands in their order are the
sub-diagrams at its offsets. The connectives are the entries with an operator. -/
theorem addresses_agree (d : Diagram) :
    (∀ trackParents, (d.transform .collector trackParents []).state = d.occurrences) ∧
      d.occurrences.length = d.size ∧
      (∀ i, d.size ≤ i → d.sub? i = none) ∧
      (∀ i < d.size, ∃ e, d.sub? i = some e ∧ d.occurrences[i]? = some ⟨i, e⟩ ∧
        d.occurrence? i = some ⟨i, e⟩ ∧ i + e.size ≤ d.size ∧
        (∀ j < e.size, d.sub? (i + j) = e.sub? j) ∧
        (Occurrence.mk i e).operands.map (·.diagram) = e.operands ∧
        (Occurrence.mk i e).operands.map some =
          e.operandOffsets.map fun k => d.occurrence? (i + k)) ∧
      d.connectives = d.occurrences.countP (·.diagram.operator?.isSome) := by
  refine ⟨?_, length_occurrencesFrom d 0, ?_, ?_, connectives_eq_countP d 0⟩
  · intro trackParents
    rw [transform_collector]
  · intro i hi
    exact sub?_eq_none_iff.2 hi
  · intro i hi
    obtain ⟨e, he⟩ := exists_sub? hi
    have ho : d.occurrence? i = some ⟨i, e⟩ := by rw [occurrence?, he]; rfl
    refine ⟨e, he, ?_, ho, add_size_le he, fun j hj => sub?_add he hj, ?_, ?_⟩
    · rw [getElem?_occurrences, ho]
    · exact Occurrence.map_diagram_operands ⟨i, e⟩
    · exact (map_occurrence?_operandOffsets he).symm

theorem addresses_agree_nested :
    let e : Diagram := .binary .conjunction (.negation .null) .null
    let d : Diagram := .binary .disjunction (.negation e) .null
    2 < d.size ∧ d.sub? 2 = some e ∧ 2 < e.size ∧ d.sub? (2 + 2) = e.sub? 2 ∧
      [⟨3, .negation .null⟩, ⟨5, .null⟩].map some = [d.occurrence? (2 + 1), d.occurrence? (2 + 3)] ∧
      d.size ≤ 7 ∧ d.sub? 7 = none := by
  intro e d
  obtain ⟨_, _, hnone, hsome, _⟩ := addresses_agree d
  have hi : 2 < d.size := by decide
  have hj : 2 < e.size := by decide
  have hn : d.size ≤ 7 := by decide
  obtain ⟨e', he, _, _, _, hsub, _, hoperands⟩ := hsome 2 hi
  obtain rfl : e = e' := Option.some.inj he
  exact ⟨hi, he, hj, hsub 2 hj, hoperands, hn, hnone 7 hn⟩

end Diagram

end SpiderDiagrams
