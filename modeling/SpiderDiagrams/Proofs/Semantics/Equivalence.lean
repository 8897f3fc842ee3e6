import SpiderDiagrams.Proofs.Semantics.Soundness

universe u

namespace SpiderDiagrams.Rule

theorem apply_eliminate_null (d : Diagram) :
    conjunctionElimination.apply (.multiple [⟨0, 0⟩, ⟨0, 1⟩]) [.binary .conjunction .null d] =
      .ok [] := rfl

/-- The rules under which goals keep their truth, whatever their argument, the goals and the
interpretation, are those that do not eliminate a conjunction. -/
theorem apply_keeps_truth_iff (rule : Rule) :
    (∀ (a : Argument) (g h : Goals), rule.apply a g = .ok h →
      ∀ (U : Type u) (I : Interpretation U), I.Hold g ↔ I.Hold h) ↔
    rule ≠ .conjunctionElimination := by
  constructor
  · rintro hkeep rfl
    -- the other operand is lost, so it may be false where the empty goals hold
    let I : Interpretation PUnit.{u + 1} := ⟨fun _ => Set.univ⟩
    have hempty : I.Hold [] := fun d hd => by simp at hd
    have hhold := (hkeep _ _ _ (apply_eliminate_null .emptyContour) _ I).2 hempty
    have hfalse : ¬ I.Holds .emptyContour :=
      Interpretation.not_holds_emptyContour_of_mem (x := .unit) trivial
    exact hfalse (hhold _ List.mem_cons_self).2
  · intro hr a g h ha U I
    exact (Interpretation.hold_iff_of_apply hr ha).symm

def twoZones : Primary :=
  ⟨.ofList [("s", .ofList [.ofLists ["A"] [], .ofLists [] ["A"]])], ∅⟩

theorem apply_keeps_truth_iff_splitSpiders :
    let p := twoZones
    let inside : Primary := { p with habitats := p.habitats.insert "s" (.ofList [.ofLists ["A"] []]) }
    let outside : Primary := { p with habitats := p.habitats.insert "s" (.ofList [.ofLists [] ["A"]]) }
    let g : Goals := [.null, .negation (.binary .equivalence .null (.primary p))]
    let h : Goals := [.null, .negation (.binary .equivalence .null
      (.binary .disjunction (.primary inside) (.primary outside)))]
    splitSpiders.apply (.spiderRegion ⟨1, 3⟩ "s" (.ofList [.ofLists ["A"] []])) g = .ok h ∧
      (∀ d ∈ g, d.Valid) ∧ ∀ (U : Type u) (I : Interpretation U), I.Hold g ↔ I.Hold h := by
  intro p inside outside g h
  have ha : splitSpiders.apply (.spiderRegion ⟨1, 3⟩ "s" (.ofList [.ofLists ["A"] []])) g = .ok h := by
    rfl
  exact ⟨ha, by decide, (apply_keeps_truth_iff splitSpiders).2 (by decide) _ g h ha⟩

end SpiderDiagrams.Rule
