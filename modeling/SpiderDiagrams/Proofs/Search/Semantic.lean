import SpiderDiagrams.Proofs.Closable
import SpiderDiagrams.Proofs.Search.Continuation
import SpiderDiagrams.Proofs.Search.Waiting

/-!
Searches that take goals with the same normal forms for duplicates. Of each class of goals only
those met first are expanded, and these are reached by steps that change the class. An exhausted
search misses no proof as long as none of them hides null or a conjunction below a double negation,
which cannot happen to goals that direct rules prove. Other rules lose proofs.
-/

namespace SpiderDiagrams.Prover

open Relation (ReflTransGen)

variable {p : Prover} {seed : Trace} {s s' : SearchState} {g : Goals}

/-- A step to goals that are not taken for duplicates of those before it. -/
def FreshStep (p : Prover) (g h : Goals) : Prop := Goals.Step p.rules g h ∧ p.key h ≠ p.key g

/-- Each visited key is that of goals which fresh steps lead to and which are covered. -/
structure Surveyed (p : Prover) (seed : Trace) (s : SearchState) : Prop where
  sound : p.Sound seed s
  current : p.key seed.current ∈ s.visited
  waiting : ∀ x ∈ s.frontier.toList, ReflTransGen p.FreshStep seed.current x.2.current
  visited : s.boundReached = false → ∀ k ∈ s.visited,
    ∃ g, ReflTransGen p.FreshStep seed.current g ∧ p.Covered s g ∧ p.key g = k

theorem surveyed_start (hseed : seed.steps = []) : p.Surveyed seed (p.start seed) where
  sound := sound_start p seed
  current := mem_visited_start.2 ⟨_, List.mem_of_getLast? seed.getLast?_states, rfl⟩
  waiting x hx := by
    rw [toList_frontier_start, List.mem_singleton] at hx
    rw [hx]
  visited _ k hk := by
    obtain ⟨g, hg, rfl⟩ := mem_visited_start.1 hk
    obtain rfl : g = seed.current := by simpa [Trace.states, Trace.current, hseed] using hg
    exact ⟨seed.current, .refl, (closed_start p seed).current, rfl⟩

theorem surveyed_round (hs : p.Surveyed seed s) (h : Round p seed.steps.length s s') :
    p.Surveyed seed s' := by
  have hwaiting : ∀ x ∈ s'.frontier.toList, ReflTransGen p.FreshStep seed.current x.2.current := by
    obtain ⟨r, t, f, hf, _, hnew⟩ := spawned_round h
    have ht : (r, t) ∈ s.frontier.toList := hf ▸ List.mem_cons_self
    intro x hx
    rcases hnew x hx with hx | hx
    · exact hs.waiting x (hf ▸ List.mem_cons_of_mem _ hx)
    -- the goals before a step are visited, so a step to goals that were not changes the key
    · have hkey := (hs.sound _ ht).visited t.current (List.mem_of_getLast? t.getLast?_states)
      exact (hs.waiting _ ht).tail ⟨hx.step, fun he => hx.fresh (he ▸ hkey)⟩
  refine ⟨sound_round hs.sound h, mem_visited_round h hs.current, hwaiting, ?_⟩
  intro hb k hk
  rcases visited_of_round h hk with hk | ⟨x, hx, he⟩
  · obtain ⟨g, hr, hg, he⟩ := hs.visited (boundReached_of_round h hb) k hk
    exact ⟨g, hr, covered_of_round h hb hg, he⟩
  · exact ⟨x.2.current, hwaiting x hx, .inl ⟨x, hx, rfl⟩, he⟩

theorem exhausted_surveyed (hseed : seed.steps = []) {a : Cancellation}
    (h : (p.search seed a).status = .exhausted) (hb : (p.search seed a).boundReached = false) :
    ∃ s : SearchState, p.key seed.current ∈ s.visited ∧ ∀ k ∈ s.visited,
      ∃ g, ReflTransGen p.FreshStep seed.current g ∧ p.Expanded s g ∧ p.key g = k := by
  obtain ⟨s, hs, ho⟩ := search_induction seed a (surveyed_start hseed) fun _ _ => surveyed_round
  generalize p.search seed a = r at h hb ho
  cases ho with
  | aborted | proved => cases h
  | cut => cases hb
  | exhausted hp =>
      refine ⟨s, hs.current, ?_⟩
      intro k hk
      obtain ⟨g, hr, ⟨x, hx, _⟩ | hg, he⟩ := hs.visited hb k hk
      · rw [Frontier.toList_of_pop?_eq_none hp] at hx
        cases hx
      · exact ⟨g, hr, hg, he⟩

theorem key_eq_normalKey (hp : p.config.duplicates = .semantic) (g : Goals) :
    p.key g = g.normalKey := by
  rw [key, hp]

/-- An exhausted search that met no bound and merged goals with the same normal forms has missed no
proof, if its rules are direct or no subgoal that it can come to is hidden. -/
theorem not_derives_of_merged (p : Prover) (hp : p.config.duplicates = .semantic) (g : Goals)
    (hg : ∀ d ∈ g, d.Valid) (h : (p.prove g).status = .exhausted)
    (hb : (p.prove g).boundReached = false)
    (hx : Rule.Direct p.rules ∨ ∀ k, ReflTransGen (Goals.Alters p.rules) g.dischargeTrivial k →
      ∀ d ∈ k, ¬d.Hidden p.rules) :
    ¬Goals.Derives p.rules g.dischargeTrivial [] := by
  intro hd
  have hhidden : ∀ k, ReflTransGen (Goals.Alters p.rules) g.dischargeTrivial k →
      ∀ d ∈ k, ¬d.Hidden p.rules := by
    rcases hx with hx | hx
    · exact fun k hk => Goals.not_hidden_of_derives hx hd hk
    · exact hx
  have hvalid : ∀ d ∈ g.dischargeTrivial, d.Valid := fun d hd => hg d (List.mem_filter.1 hd).1
  obtain ⟨s, hseed, hs⟩ := exhausted_surveyed rfl h hb
  refine Goals.not_derives_of_represents (V := {k | k ∈ s.visited}) ?_ hvalid ?_ hd
  · intro k hk
    obtain ⟨r, hr, ⟨hne, hsucc⟩, rfl⟩ := hs k hk
    have halters : ReflTransGen (Goals.Alters p.rules) g.dischargeTrivial r := by
      refine ReflTransGen.mono ?_ _ _ hr
      rintro a b ⟨hab, hkey⟩
      rw [key_eq_normalKey hp, key_eq_normalKey hp] at hkey
      exact ⟨hab, hkey⟩
    have hleads : ReflTransGen Goals.Leads g.dischargeTrivial r := by
      refine ReflTransGen.mono ?_ _ _ hr
      rintro a b ⟨⟨i, c, _, ha⟩, _⟩
      exact ⟨c.rule, c.argument i, ha⟩
    obtain ⟨hv, ht⟩ := Goals.valid_and_not_isTrivial_of_run hg hleads
    refine ⟨r, (key_eq_normalKey hp r).symm, hne, hv, ht, hhidden r halters, ?_⟩
    intro k hk
    rw [← key_eq_normalKey hp]
    exact hsucc k hk
  · rw [← key_eq_normalKey hp]
    exact hseed

theorem not_derives_of_merged_negations :
    let c : Config := { duplicates := .semantic }
    let p := ofConfig c [.doubleNegationIntroduction, .splitConjunction, .trivialImplication,
      .commutativity]
    let g : Goals := [.binary .conjunction .null (.binary .implication .null (.negation .null))]
    let q := ofConfig c [.doubleNegationElimination, .doubleNegationIntroduction, .commutativity,
      .idempotency]
    let h : Goals := [.binary .disjunction (.negation .null) (.negation .null)]
    ((p.prove g).status = .exhausted ∧ (p.prove g).boundReached = false ∧ Rule.Direct p.rules) ∧
      ((q.prove h).status = .exhausted ∧ (q.prove h).boundReached = false ∧ ¬Rule.Direct q.rules) ∧
      ¬Goals.Derives p.rules g.dischargeTrivial [] ∧
      ¬Goals.Derives q.rules h.dischargeTrivial [] := by
  intro c p g q h
  have hp : (p.prove g).status = .exhausted ∧ (p.prove g).boundReached = false := by
    rw [prove, search_eq_searchListed]
    decide +kernel
  have hq : (q.prove h).status = .exhausted ∧ (q.prove h).boundReached = false := by
    rw [prove, search_eq_searchListed]
    decide +kernel
  have hdirect : Rule.Direct p.rules := ⟨by decide, by decide, by decide⟩
  refine ⟨⟨hp.1, hp.2, hdirect⟩, ⟨hq.1, hq.2, fun hd => hd.drop (by decide)⟩, ?_, ?_⟩
  · exact not_derives_of_merged p rfl g (by decide) hp.1 hp.2 (.inl hdirect)
  · refine not_derives_of_merged q rfl h (by decide) hq.1 hq.2 (.inr ?_)
    intro k hk
    have hmem : k ∈ [h, [.negation .null]] :=
      Goals.mem_of_alters (by decide +kernel) List.mem_cons_self hk
    rcases List.mem_pair.1 hmem with rfl | rfl <;> rw [List.forall_mem_singleton]
    · rintro ⟨⟨_, he⟩, -⟩
      cases he
    · rintro ⟨-, hn | ⟨_, _, _, hn⟩⟩ <;> cases hn

/-- The search is exhausted without a bound although steps lead to the empty goals. -/
def Loses (rules : List Rule) (g : Goals) : Prop :=
  let p := ofConfig { duplicates := .semantic } rules
  (∀ d ∈ g, d.Valid) ∧ (p.prove g).status = .exhausted ∧ (p.prove g).boundReached = false ∧
    Goals.Derives p.rules g.dischargeTrivial []

theorem loses_of_two_steps {rules : List Rule} {h : Goals} (hg : ∀ d ∈ g, d.Valid)
    (hs :
      let p := ofConfig { duplicates := .semantic } rules
      let r := p.searchListed ⟨g.dischargeTrivial, [], ∅⟩ .never
      r.status = .exhausted ∧ r.boundReached = false)
    (h₁ : Goals.Step rules g.dischargeTrivial h) (h₂ : Goals.Step rules h []) :
    Loses rules g := by
  simp only [← search_eq_searchListed] at hs
  exact ⟨hg, hs.1, hs.2, .head h₁ (.single h₂)⟩

/-- Each way in which rules can fail to be direct loses a proof. -/
theorem merging_loses :
    let twice (d : Diagram) : Diagram := .negation (.negation d)
    let both (l r : Diagram) : Diagram := .binary .conjunction l r
    Loses [.doubleNegationElimination] [twice (twice .null)] ∧
      Loses [.conjunctionElimination] [both (twice (both .null .null)) (both .null .null)] ∧
      Loses [.idempotency, .commutativity] [both (twice .null) .null] ∧
      Loses [.splitConjunction, .idempotency] [both .null (twice (both .null .null))] := by
  intro twice both
  refine ⟨?_, ?_, ?_, ?_⟩
  · exact loses_of_two_steps (h := [twice .null]) (by decide) (by decide +kernel)
      ⟨0, ⟨.doubleNegationElimination, 0, .none⟩, by decide +kernel, rfl⟩
      ⟨0, ⟨.doubleNegationElimination, 0, .none⟩, by decide +kernel, rfl⟩
  · exact loses_of_two_steps (h := [both .null .null]) (by decide) (by decide +kernel)
      ⟨0, ⟨.conjunctionElimination, 0, .operand 6⟩, by decide +kernel, rfl⟩
      ⟨0, ⟨.conjunctionElimination, 0, .operand 1⟩, by decide +kernel, rfl⟩
  · exact loses_of_two_steps (h := [both .null (twice .null)]) (by decide) (by decide +kernel)
      ⟨0, ⟨.commutativity, 0, .none⟩, by decide +kernel, rfl⟩
      ⟨0, ⟨.idempotency, 0, .none⟩, by decide +kernel, rfl⟩
  · exact loses_of_two_steps (h := [both .null (twice .null)]) (by decide) (by decide +kernel)
      ⟨0, ⟨.idempotency, 4, .none⟩, by decide +kernel, rfl⟩
      ⟨0, ⟨.idempotency, 0, .none⟩, by decide +kernel, rfl⟩

end SpiderDiagrams.Prover
