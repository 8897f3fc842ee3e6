import SpiderDiagrams.Proofs.Inverses
import SpiderDiagrams.Proofs.Search.Semantic

namespace SpiderDiagrams

open Diagram (Congruent)

variable {g h : Goals} {t : Target} {a : Argument} {rule : Rule} {e e' : Diagram}

namespace Rule

theorem congruent_of_replaces (hr : Replaces rule e e') (hrule : rule = .commutativity ∨
    rule = .doubleNegationIntroduction ∨ rule = .doubleNegationElimination) (he : e.Valid) :
    Congruent e e' := by
  cases hr with
  | drop => exact .cancel he
  | wrap => exact .symm (.cancel he)
  | swap hc =>
      refine .swap ?_ he.1 he.2
      rintro rfl
      cases hc
  | collapse | close => rcases hrule with hrule | hrule | hrule <;> cases hrule

end Rule

namespace Goals

theorem normalKey_of_rewritten (hg : ∀ d ∈ g, d.Valid) (hr : g.Rewritten h t e e')
    (hc : e.Valid → Congruent e e') :
    ∃ d d', g[t.subgoal]? = some d ∧ d.sub? t.occurrence = some e ∧
      d.replaceAt? t.occurrence e' = some d' ∧
      (d'.isTrivial = false → h.normalKey = g.normalKey) := by
  obtain ⟨g₁, g₂, K, rfl, rfl, rfl⟩ := rewritten_iff.1 hr
  refine ⟨K.fill e, K.fill e', getElem?_middle g₁ g₂ _, K.sub?_fill e, K.replaceAt?_fill e e', ?_⟩
  intro ht
  have hvalid : (K.fill e).Valid := hg _ (by simp)
  have hcong := (hc (Context.valid_of_fill hvalid)).fill hvalid
  rw [dischargeTrivial_singleton ht]
  simp [normalKey, Diagram.normalize_eq_of_congruent hcong]

theorem normalKey_of_apply (hg : ∀ d ∈ g, d.Valid)
    (hrule : rule = .commutativity ∨ rule = .doubleNegationIntroduction)
    (ha : rule.apply a g = .ok h) : h.normalKey = g.normalKey := by
  have hne : rule.replacement? ≠ none := by
    rcases hrule with rfl | rfl <;> exact Option.some_ne_none _
  obtain ⟨t, e, e', rfl, hr, ht⟩ := Rule.exists_replaces_of_apply ha hne
  have he' : e'.isTrivial = false := by
    rcases hrule with rfl | rfl <;> cases hr <;> rfl
  obtain ⟨d, d', _, _, hd', hkey⟩ :=
    normalKey_of_rewritten hg ht (Rule.congruent_of_replaces hr (hrule.imp_right .inl))
  exact hkey (Diagram.not_isTrivial_of_sub? (Diagram.sub?_of_replaceAt? hd') he')

theorem normalKey_of_unwraps (hg : ∀ d ∈ g, d.Valid)
    (ha : Rule.doubleNegationElimination.apply a g = .ok h) :
    ∃ d', g.Unwraps a d' ∧ (d'.isTrivial = false → h.normalKey = g.normalKey) := by
  obtain ⟨t, e, e', rfl, hr, ht⟩ := Rule.exists_replaces_of_apply ha (Option.some_ne_none _)
  obtain ⟨d, d', hd, hs, hd', hkey⟩ :=
    normalKey_of_rewritten hg ht (Rule.congruent_of_replaces hr (.inr (.inr rfl)))
  cases hr with
  | drop => exact ⟨d', ⟨t, d, e', rfl, hd, hs, hd'⟩, hkey⟩

end Goals

namespace Prover

variable {p : Prover} {seed : Trace} {s : SearchState}

/-- A search that has explored one trace and has nothing left. -/
structure Spent (s : SearchState) : Prop where
  frontier : s.frontier.toList = []
  explored : s.statesExplored = 1
  bound : s.boundReached = false

theorem considerAll_of_duplicates {t : Trace} (l : List (Nat × Candidate))
    (hdup : ∀ i c, (i, c) ∈ l → ∀ g, c.rule.apply (c.argument i) t.current = .ok g →
      p.key g ∈ s.visited) (hs : Spent s) : Spent (p.considerAll t l s) := by
  have hinv : Spent (p.considerAll t l s) ∧ (p.considerAll t l s).visited = s.visited := by
    refine considerAll_induction (P := fun u => Spent u ∧ u.visited = s.visited) l ?_ ⟨hs, rfl⟩
    rintro i c u u' hm ⟨hu, hv⟩ hstep
    cases hstep with
    | rejected | duplicate => exact ⟨⟨hu.frontier, hu.explored, hu.bound⟩, hv⟩
    | dropped g ha hn | queued g ha hn =>
        rw [hv] at hn
        exact absurd (hdup i c hm g ha) hn
  exact hinv.1

theorem of_pop?_start {t : Trace} {f : Frontier Trace}
    (hp : (p.start seed).frontier.pop? = some (t, f)) : t = seed ∧ f.toList = [] := by
  obtain ⟨r, hf⟩ := Frontier.toList_of_pop?_eq_some hp
  rw [toList_frontier_start] at hf
  obtain ⟨hx, hnil⟩ := List.cons.inj hf
  exact ⟨(Prod.mk.inj hx).2.symm, hnil.symm⟩

theorem spent_of_round (hdepth : 1 ≤ p.config.maxDepth)
    (hdup : ∀ h, Goals.Step p.rules seed.current h → ∃ g ∈ seed.states, p.key g = p.key h)
    (hr : Round p seed.steps.length (p.start seed) s) : Spent s := by
  cases hr with
  | cut t f hp ht hd =>
      obtain ⟨rfl, _⟩ := of_pop?_start hp
      omega
  | expand t f hp ht hd =>
      obtain ⟨rfl, hf⟩ := of_pop?_start hp
      have htaken : Spent (taken t.steps.length t f (p.start t)) := by
        refine ⟨hf, ?_, ?_⟩ <;> simp [taken, start]
      have hspent : Spent (p.considerAll t (t.current.candidates p.rules)
          (taken t.steps.length t f (p.start t))) := by
        refine considerAll_of_duplicates _ ?_ htaken
        intro i c hc g ha
        exact mem_visited_start.2 (hdup g ⟨i, c, hc, ha⟩)
      exact ⟨hspent.frontier, hspent.explored, hspent.bound⟩

theorem Spent.pop?_ne_some (hs : Spent s) (x : Trace × Frontier Trace) :
    s.frontier.pop? ≠ some x := by
  intro hp
  obtain ⟨r, hf⟩ := Frontier.toList_of_pop?_eq_some hp
  rw [hs.frontier] at hf
  cases hf

theorem Spent.run (hs : Spent s) (base n : Nat) :
    (p.run base .never n s).1 = s.finish .exhausted none := by
  rcases run_cases p base .never n s with ⟨ho, _⟩ | ⟨m, s', _, hr, _⟩
  · generalize (p.run base .never n s).1 = r at ho
    cases ho with
    | aborted ha => cases ha
    | exhausted => rfl
    | proved _ _ hp | cut _ _ hp => exact absurd hp (hs.pop?_ne_some _)
  · cases hr with
    | cut _ _ hp | expand _ _ hp => exact absurd hp (hs.pop?_ne_some _)

theorem exists_round_start (hstates : 1 ≤ p.config.maxStates) (hseed : seed.isFinished = false) :
    ∃ n s, Round p seed.steps.length (p.start seed) s ∧
      p.search seed .never = (p.run seed.steps.length .never n s).1 := by
  have hbound : (p.start seed).boundReached = false := by simp [start]
  have hsearch : p.search seed .never =
    (p.run seed.steps.length .never p.config.maxStates (p.start seed)).1 := rfl
  rw [hsearch]
  rcases run_cases p seed.steps.length .never p.config.maxStates (p.start seed) with
    ⟨ho, hb⟩ | ⟨m, s, _, hr, he⟩
  · have hkept := hb.resolve_left (by omega)
    rw [hbound] at hkept
    exfalso
    generalize (p.run seed.steps.length .never p.config.maxStates (p.start seed)).1 = r at ho hkept
    cases ho with
    | aborted ha => cases ha
    | exhausted hp =>
        have hnil := Frontier.toList_of_pop?_eq_none hp
        rw [toList_frontier_start] at hnil
        cases hnil
    | proved t f hp ht =>
        obtain ⟨rfl, _⟩ := of_pop?_start hp
        rw [hseed] at ht
        cases ht
    | cut => cases hkept
  · exact ⟨m, s, hr, congrArg Prod.fst he⟩

theorem search_of_duplicates (hstates : 1 ≤ p.config.maxStates) (hdepth : 1 ≤ p.config.maxDepth)
    (hseed : seed.isFinished = false)
    (hdup : ∀ h, Goals.Step p.rules seed.current h → ∃ g ∈ seed.states, p.key g = p.key h) :
    (p.search seed .never).status = .exhausted ∧ (p.search seed .never).statesExplored = 1 ∧
      (p.search seed .never).boundReached = false := by
  obtain ⟨n, s, hr, he⟩ := exists_round_start hstates hseed
  have hs := spent_of_round hdepth hdup hr
  rw [he, hs.run]
  exact ⟨rfl, hs.explored, hs.bound⟩

theorem key_of_absorbed (hp : p.config.duplicates = .semantic)
    (hrules : ∀ r ∈ p.rules, r = .commutativity ∨ r = .doubleNegationIntroduction)
    (hg : ∀ d ∈ g, d.Valid) (hs : Goals.Step p.rules g h) : p.key g = p.key h := by
  obtain ⟨i, c, hc, ha⟩ := hs
  obtain ⟨_, _, hr, _⟩ := Goals.mem_candidates.1 hc
  rw [key_eq_normalKey hp, key_eq_normalKey hp, Goals.normalKey_of_apply hg (hrules _ hr) ha]

/-- Swapping operands and introducing a double negation keep the normal forms of valid goals, and so
does eliminating one that leaves no trivial subgoal. A search that merges goals with the same normal
forms, and has no other rules than the first two, explores the goals from which it begins, if any
are left, and is exhausted without a bound. -/
theorem absorbed_rewrites_keep_key :
    (∀ g : Goals, (∀ d ∈ g, d.Valid) → ∀ (a : Argument) (h : Goals),
      (Rule.commutativity.apply a g = .ok h → h.normalKey = g.normalKey) ∧
      (Rule.doubleNegationIntroduction.apply a g = .ok h → h.normalKey = g.normalKey) ∧
      (Rule.doubleNegationElimination.apply a g = .ok h →
        ∃ d', g.Unwraps a d' ∧ (d'.isTrivial = false → h.normalKey = g.normalKey))) ∧
    ∀ p : Prover, p.config.duplicates = .semantic → 1 ≤ p.config.maxStates →
      1 ≤ p.config.maxDepth →
      (∀ r ∈ p.rules, r = .commutativity ∨ r = .doubleNegationIntroduction) →
      ∀ g : Goals, (∀ d ∈ g, d.Valid) → g.dischargeTrivial ≠ [] →
        (p.prove g).status = .exhausted ∧ (p.prove g).statesExplored = 1 ∧
          (p.prove g).boundReached = false := by
  constructor
  · intro g hg a h
    exact ⟨Goals.normalKey_of_apply hg (.inl rfl), Goals.normalKey_of_apply hg (.inr rfl),
      Goals.normalKey_of_unwraps hg⟩
  · intro p hp hstates hdepth hrules g hg hne
    have hvalid : ∀ d ∈ g.dischargeTrivial, d.Valid := fun d hd => hg d (List.mem_filter.1 hd).1
    have hseed : Trace.isFinished ⟨g.dischargeTrivial, [], ∅⟩ = false :=
      List.isEmpty_eq_false_iff.2 hne
    refine search_of_duplicates hstates hdepth hseed ?_
    intro h hs
    exact ⟨g.dischargeTrivial, List.mem_cons_self, key_of_absorbed hp hrules hvalid hs⟩

theorem absorbed_rewrites_keep_key_nested :
    let x : Diagram := .primary ⟨.ofList [("s", .ofList [.ofLists ["A"] []])], ∅⟩
    let d (l r : Diagram) : Diagram := .negation (.binary .conjunction l r)
    let g : Goals := [d x (.negation .null)]
    let g₁ : Goals := [d (.negation .null) x]
    let g₂ : Goals := [d (.negation (.negation x)) (.negation .null)]
    let p := ofConfig { duplicates := .semantic, maxFrontier := 0 }
      [.doubleNegationIntroduction, .commutativity]
    (∀ d ∈ g, d.Valid) ∧
      (Rule.commutativity.apply (.single ⟨0, 1⟩) g = .ok g₁ ∧ g₁.normalKey = g.normalKey) ∧
      (Rule.doubleNegationIntroduction.apply (.single ⟨0, 2⟩) g = .ok g₂ ∧
        g₂.normalKey = g.normalKey) ∧
      ((∀ d ∈ g₂, d.Valid) ∧ Rule.doubleNegationElimination.apply (.single ⟨0, 2⟩) g₂ = .ok g ∧
        ∃ d', g₂.Unwraps (.single ⟨0, 2⟩) d' ∧ d'.isTrivial = false ∧ g.normalKey = g₂.normalKey) ∧
      g.dischargeTrivial ≠ [] ∧ (p.prove g).status = .exhausted ∧
      (p.prove g).statesExplored = 1 ∧ (p.prove g).boundReached = false := by
  intro x d g g₁ g₂ p
  have hg : ∀ d ∈ g, d.Valid := by decide
  have hg₂ : ∀ d ∈ g₂, d.Valid := by decide
  have hswap : Rule.commutativity.apply (.single ⟨0, 1⟩) g = .ok g₁ := rfl
  have hwrap : Rule.doubleNegationIntroduction.apply (.single ⟨0, 2⟩) g = .ok g₂ := rfl
  have hdrop : Rule.doubleNegationElimination.apply (.single ⟨0, 2⟩) g₂ = .ok g := rfl
  have hne : g.dischargeTrivial ≠ [] := List.cons_ne_nil _ _
  obtain ⟨d', hd', hkey⟩ := (absorbed_rewrites_keep_key.1 g₂ hg₂ _ g).2.2 hdrop
  have htrivial : d'.isTrivial = false := by
    obtain ⟨t, w, f, ht, hw, _, hf⟩ := hd'
    cases ht
    cases hw
    cases hf
    rfl
  exact ⟨hg, ⟨hswap, (absorbed_rewrites_keep_key.1 g hg _ g₁).1 hswap⟩,
    ⟨hwrap, (absorbed_rewrites_keep_key.1 g hg _ g₂).2.1 hwrap⟩,
    ⟨hg₂, hdrop, d', hd', htrivial, hkey htrivial⟩, hne,
    absorbed_rewrites_keep_key.2 p rfl (by decide) (by decide) (by decide) g hg hne⟩

end Prover

end SpiderDiagrams
