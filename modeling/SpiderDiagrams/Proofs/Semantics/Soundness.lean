import SpiderDiagrams.Proofs.Search.Continuation
import SpiderDiagrams.Proofs.Semantics.Rules

universe u

namespace SpiderDiagrams

variable {U : Type u} {I : Interpretation U} {p : Prover} {seed t : Trace} {g : Goals}

/-- All eliminations of conjunctions in a trace are harmless. -/
def Interpretation.Harmless (I : Interpretation U) (t : Trace) : Prop :=
  ∀ (i : Nat) (g : Goals) (target kept : Target) (kind : ApplicationKind), t.states[i]? = some g →
    t.applications[i]? = some ⟨Rule.conjunctionElimination.name, .multiple [target, kept], kind⟩ →
    I.HarmlessAt g target kept

namespace Interpretation

theorem harmless_of_push {a : Application} (h : I.Harmless (t.push a g)) : I.Harmless t := by
  intro i g' target kept kind hg ha
  have hi := Trace.lt_of_getElem?_applications ha
  refine h i g' target kept kind ?_ ?_
  · rw [Trace.getElem?_states_push (Nat.le_of_lt hi), hg]
  · rw [Trace.getElem?_applications_push hi, ha]

theorem harmlessAt_of_push {target kept : Target} {kind : ApplicationKind}
    (h : I.Harmless (t.push ⟨Rule.conjunctionElimination.name, .multiple [target, kept], kind⟩ g)) :
    I.HarmlessAt t.current target kept := by
  refine h t.steps.length t.current target kept kind ?_ (t.getElem?_applications_push_last _ g)
  rw [Trace.getElem?_states_push (Nat.le_refl _)]
  exact t.getElem?_states_length

theorem hold_of_continues (h : p.Continues seed t) (hi : I.Harmless t) (ht : I.Hold t.current) :
    I.Hold seed.current := by
  induction h with
  | seed => exact ht
  | @push t rule a g _ hr ha _ ih =>
      apply ih (harmless_of_push hi)
      by_cases he : rule = .conjunctionElimination
      · subst he
        apply hold_of_eliminate ha ?_ ht
        rintro target kept rfl
        exact harmlessAt_of_push hi
      · exact (hold_iff_of_apply he ha).1 ht

theorem harmless_of_continues (h : p.Continues seed t) (hs : seed.steps = [])
    (hr : .conjunctionElimination ∉ p.rules) : I.Harmless t := by
  intro i g target kept kind _ ha
  obtain ⟨_, rule, hrule, hname, _⟩ := h.added (by simp [hs]) ha
  have he : rule = .conjunctionElimination := by
    have hn := Rule.ofName?_name rule
    rw [hname, Rule.ofName?_name] at hn
    exact (Option.some.inj hn).symm
  exact absurd (he ▸ hrule) hr

end Interpretation

def Diagram.emptyContour : Diagram := .primary ⟨∅, .ofList [.ofLists ["A"] []]⟩

def Interpretation.full : Interpretation Unit := ⟨fun _ => Set.univ⟩

theorem Interpretation.not_holds_emptyContour_of_mem {x : U} (hx : x ∈ I.contour "A") :
    ¬ I.Holds .emptyContour := by
  rintro ⟨c⟩
  have hz : Zone.ofLists ["A"] [] ∈ (SortedSet.ofList [Zone.ofLists ["A"] []] : Region) :=
    SortedSet.mem_ofList.2 (List.mem_singleton_self _)
  have hzone : x ∈ I.zone (.ofLists ["A"] []) := by
    refine ⟨?_, fun _ h => absurd h (SortedSet.not_mem_empty _)⟩
    intro c hc
    obtain rfl : c = "A" := List.mem_singleton.1 (SortedSet.mem_ofList.1 hc)
    exact hx
  obtain ⟨s, _⟩ := c.covers _ hz x hzone
  exact List.not_mem_nil s.2

theorem Interpretation.not_holds_emptyContour : ¬ full.Holds .emptyContour :=
  not_holds_emptyContour_of_mem (x := ()) trivial

namespace Prover

/-- Proved goals hold under every interpretation in which the eliminations of the proof that was
found are harmless, and under all of them if the prover eliminates no conjunctions. -/
theorem hold_of_proved (p : Prover) (g : Goals) (h : (p.prove g).status = .proved)
    {U : Type u} (I : Interpretation U) :
    (∃ t, (p.prove g).proof = some t ∧ (I.Harmless t → I.Hold g)) ∧
      (.conjunctionElimination ∉ p.rules → I.Hold g) := by
  obtain ⟨t, ht⟩ := (status_eq_proved_iff p _ _).1 h
  obtain ⟨hf, s, hs⟩ := admitted_of_search ht
  have hold : I.Harmless t → I.Hold g := by
    intro hi
    have hend : I.Hold t.current := by
      rw [List.isEmpty_iff.1 hf]
      exact fun d hd => absurd hd List.not_mem_nil
    exact Interpretation.hold_dischargeTrivial.1 (Interpretation.hold_of_continues hs.continues hi hend)
  refine ⟨⟨t, ht, hold⟩, ?_⟩
  intro hr
  exact hold (Interpretation.harmless_of_continues hs.continues rfl hr)

theorem hold_of_proved_premise :
    let p := ofConfig {} [.conjunctionElimination, .trivialImplication]
    let d := Diagram.emptyContour
    let g : Goals := [.binary .implication (.binary .conjunction d (.negation d)) d]
    (p.prove g).status = .proved ∧
      ∃ t, (p.prove g).proof = some t ∧ Interpretation.full.Harmless t ∧
        Interpretation.full.Hold g := by
  intro p d g
  have h : (p.prove g).status = .proved := by
    rw [prove, search_eq_searchListed]
    decide +kernel
  have hproof : (p.prove g).proof = some
      { initial := g
        steps := [⟨⟨Rule.trivialImplication.name, .single ⟨0, 0⟩, .automatic⟩, []⟩,
          ⟨⟨Rule.conjunctionElimination.name, .multiple [⟨0, 1⟩, ⟨0, 2⟩], .automatic⟩,
            [.binary .implication d d]⟩] } := by
    rw [prove, search_eq_searchListed]
    decide +kernel
  obtain ⟨t, ht, hold⟩ := (hold_of_proved p g h Interpretation.full).1
  have hi : Interpretation.full.Harmless t := by
    obtain rfl := Option.some.inj (hproof.symm.trans ht)
    intro i g' target kept kind hg ha
    match i with
    | 0 =>
        cases hg
        cases ha
        intro c e e' hc _ _
        cases hc
        exact .inl rfl
    | 1 => simp [Trace.applications, Rule.name] at ha
    | i + 2 => cases ha
  exact ⟨h, t, ht, hi, hold hi⟩

/-- A conjunction with the null diagram is proved, although its other operand may be false. -/
theorem not_hold_of_proved_conjunction :
    let p := ofConfig {} [.conjunctionElimination]
    let g : Goals := [.binary .conjunction .null .emptyContour]
    (∀ d ∈ g, d.Valid) ∧ (p.prove g).status = .proved ∧ ¬ Interpretation.full.Hold g := by
  intro p g
  refine ⟨?_, ?_, ?_⟩
  · decide
  · rw [prove, search_eq_searchListed]
    rfl
  · intro h
    exact Interpretation.not_holds_emptyContour (h _ List.mem_cons_self).2

end Prover

end SpiderDiagrams
