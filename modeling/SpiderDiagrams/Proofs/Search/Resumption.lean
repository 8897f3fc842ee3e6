import SpiderDiagrams.Proofs.Search.Continuation
import SpiderDiagrams.Proofs.Search.Exhaustion

namespace SpiderDiagrams

/-- A step that does not lead back to goals that the trace has left. -/
def Goals.StepApart (rules : List Rule) (t : Trace) (g h : Goals) : Prop :=
  Step rules g h ∧ (h ∈ t.states → h = t.current)

namespace Prover

variable {p : Prover} {t : Trace} {s : SearchState} {g : Goals}

theorem extend_of_exhausted (h : (p.search t .never).status = .exhausted) : p.extend t = t := by
  rw [extend]
  cases hp : (p.search t .never).proof with
  | none => rfl
  | some u =>
      rw [(status_eq_proved_iff p t .never).2 ⟨u, hp⟩] at h
      cases h

/-- At the end of a search, goals that steps lead to apart from earlier goals have been expanded. -/
theorem expanded_of_apart (hp : p.config.duplicates = .structural) (hs : p.Closed t s)
    (hf : s.frontier.toList = [])
    (hd : Relation.ReflTransGen (Goals.StepApart p.rules t) t.current g) :
    g ≠ [] ∧ ∀ h, Goals.Step p.rules g h → h ∈ s.visited := by
  have hexpanded : ∀ g, p.Covered s g →
      g ≠ [] ∧ ∀ h, Goals.Step p.rules g h → h ∈ s.visited := by
    rintro g (⟨x, hx, _⟩ | ⟨hne, hsucc⟩)
    · rw [hf] at hx
      cases hx
    · refine ⟨hne, fun h hh => ?_⟩
      rw [← key_eq_self hp h]
      exact hsucc h hh
  induction hd with
  | refl => exact hexpanded _ hs.current
  | @tail g h _ hstep ih =>
      rcases hs.visited h (ih.2 h hstep.1) with ⟨k, hk, rfl⟩ | ⟨k, hk, rfl⟩
      · rw [key_eq_self hp] at hstep ⊢
        rw [hstep.2 hk]
        exact hexpanded _ hs.current
      · rw [key_eq_self hp]
        exact hexpanded k hk

theorem reflTransGen_stepApart {rules : List Rule}
    (ht : ∀ g ∈ t.states, Goals.Derives rules t.current g → g = t.current)
    (hd : Goals.Derives rules t.current g) :
    Relation.ReflTransGen (Goals.StepApart rules t) t.current g := by
  induction hd with
  | refl => exact .refl
  | tail hg hstep ih => exact ih.tail ⟨hstep, fun hk => ht _ hk (hg.tail hstep)⟩

/-- If the search for a continuation is exhausted and met no bound, the trace is left as it is, and
no steps lead from its last goals to the empty ones unless they pass through earlier goals of the
trace; none at all do if no steps lead back to those. -/
theorem not_derives_of_resumed (p : Prover) (hp : p.config.duplicates = .structural) (t : Trace)
    (h : (p.search t .never).status = .exhausted) (hb : (p.search t .never).boundReached = false) :
    p.extend t = t ∧
      ¬ Relation.ReflTransGen (Goals.StepApart p.rules t) t.current [] ∧
      ((∀ g ∈ t.states, Goals.Derives p.rules t.current g → g = t.current) →
        ¬ Goals.Derives p.rules t.current []) := by
  obtain ⟨s, hs, hf⟩ := exhausted_closed h hb
  have hapart : ¬ Relation.ReflTransGen (Goals.StepApart p.rules t) t.current [] :=
    fun hd => (expanded_of_apart hp hs hf hd).1 rfl
  exact ⟨extend_of_exhausted h, hapart, fun ht hd => hapart (reflTransGen_stepApart ht hd)⟩

def wrapped : Trace :=
  let d : Diagram := .binary .conjunction .null .null
  { initial := [d]
    steps := [⟨⟨Rule.doubleNegationIntroduction.name, .single ⟨0, 0⟩, .interactive⟩,
      [.negation (.negation d)]⟩] }

def unwrapping : Prover := ofConfig {} [.doubleNegationElimination, .splitConjunction]

theorem exhausted_wrapped : (unwrapping.search wrapped .never).status = .exhausted ∧
    (unwrapping.search wrapped .never).boundReached = false := by
  rw [search_eq_searchListed]
  decide +kernel

theorem not_derives_of_resumed_wrapped :
    ((unwrapping.search wrapped .never).status = .exhausted ∧
      (unwrapping.search wrapped .never).boundReached = false) ∧
      unwrapping.extend wrapped = wrapped ∧
      ¬ Relation.ReflTransGen (Goals.StepApart unwrapping.rules wrapped) wrapped.current [] := by
  obtain ⟨h, hb⟩ := exhausted_wrapped
  obtain ⟨hextend, hapart, _⟩ := not_derives_of_resumed unwrapping rfl wrapped h hb
  exact ⟨⟨h, hb⟩, hextend, hapart⟩

/-- The negations can be dropped again and the conjunction split, but the conjunction alone is where
the trace began. -/
theorem derives_though_exhausted :
    Trace.apply ⟨wrapped.initial, [], ∅⟩ .doubleNegationIntroduction (.single ⟨0, 0⟩) .interactive =
        .ok wrapped ∧
      (unwrapping.search wrapped .never).status = .exhausted ∧
      (unwrapping.search wrapped .never).boundReached = false ∧
      Goals.Derives unwrapping.rules wrapped.current [] := by
  obtain ⟨h, hb⟩ := exhausted_wrapped
  refine ⟨rfl, h, hb, ?_⟩
  have hdrop : Goals.Step unwrapping.rules wrapped.current wrapped.initial :=
    ⟨0, ⟨.doubleNegationElimination, 0, .none⟩, by decide +kernel, rfl⟩
  have hsplit : Goals.Step unwrapping.rules wrapped.initial [] :=
    ⟨0, ⟨.splitConjunction, 0, .none⟩, by decide +kernel, rfl⟩
  exact .head hdrop (.single hsplit)

end Prover

end SpiderDiagrams
