import SpiderDiagrams.Proofs.Growth
import SpiderDiagrams.Proofs.Search.Waiting

namespace SpiderDiagrams.Prover

variable {p : Prover} {seed t : Trace} {s s' : SearchState} {base : Nat} {a : Cancellation}

@[simp]
theorem depthReached_enqueue (t : Trace) (s : SearchState) :
    (p.enqueue t s).depthReached = s.depthReached := by
  rw [enqueue]
  cases p.estimate t <;> rfl

@[simp]
theorem peakFrontier_enqueue (t : Trace) (s : SearchState) :
    (p.enqueue t s).peakFrontier = s.peakFrontier := by
  rw [enqueue]
  cases p.estimate t <;> rfl

/-- How many traces may wait: the first one always does. -/
def capacity (p : Prover) : Nat := max 1 p.config.maxFrontier

/-- What candidates do to the numbers of a search. -/
structure Tallies (p : Prover) (s s' : SearchState) : Prop where
  depthReached : s'.depthReached = s.depthReached
  peakFrontier : s'.peakFrontier = s.peakFrontier
  frontier : s'.frontier.size ≤ max s.frontier.size p.capacity

theorem tallies_considers {u u' : SearchState} {i : Nat} {c : Candidate} (h : Tallies p s u)
    (hc : Considers p t i c u u') : Tallies p s u' := by
  cases hc with
  | rejected | duplicate | dropped => exact ⟨h.depthReached, h.peakFrontier, h.frontier⟩
  | queued g ha hv hf =>
      refine ⟨?_, ?_, ?_⟩
      · rw [depthReached_enqueue]
        exact h.depthReached
      · rw [peakFrontier_enqueue]
        exact h.peakFrontier
      · rw [frontier_enqueue]
        exact Nat.le_trans hf (Nat.le_trans (Nat.le_max_right 1 _) (Nat.le_max_right _ _))

theorem tallies_considerAll (l : List (Nat × Candidate)) (s : SearchState) :
    Tallies p s (p.considerAll t l s) :=
  considerAll_induction l (fun _ _ _ _ _ hu hc => tallies_considers hu hc)
    ⟨rfl, rfl, Nat.le_max_left _ _⟩

/-- The numbers of a search that began with so many steps. -/
structure Metered (p : Prover) (base : Nat) (s : SearchState) : Prop where
  waiting : ∀ x ∈ s.frontier.toList, x.2.steps.length ≤ base + s.statesExplored
  depth : s.depthReached ≤ s.statesExplored - 1
  frontier : s.frontier.size ≤ p.capacity
  peak : s.peakFrontier ≤ p.capacity

theorem metered_start (p : Prover) (seed : Trace) : Metered p seed.steps.length (p.start seed) := by
  have hsize : (p.start seed).frontier.size = 1 := by
    rw [← Frontier.length_toList, toList_frontier_start]
    rfl
  refine ⟨?_, ?_, ?_, ?_⟩
  · intro x hx
    rw [toList_frontier_start, List.mem_singleton] at hx
    rw [hx]
    exact Nat.le_add_right _ _
  · simp [start]
  · rw [hsize]
    exact Nat.le_max_left _ _
  · show (p.start seed).frontier.size ≤ _
    rw [hsize]
    exact Nat.le_max_left _ _

theorem waiting_round (hs : Metered p base s) (h : Round p base s s') :
    ∀ x ∈ s'.frontier.toList, x.2.steps.length ≤ base + s'.statesExplored := by
  obtain ⟨r, t, f, hf, _, hx⟩ := spawned_round h
  have hbefore := hs.waiting
  rw [hf, List.forall_mem_cons] at hbefore
  obtain ⟨ht, hbefore⟩ := hbefore
  rw [statesExplored_round h]
  intro x hx'
  rcases hx x hx' with hx | hx
  · exact Nat.le_succ_of_le (hbefore x hx)
  · rw [hx.length]
    exact Nat.succ_le_succ ht

theorem metered_round (hs : Metered p base s) (h : Round p base s s') : Metered p base s' := by
  have hwaiting := waiting_round hs h
  have hexplored := statesExplored_round h
  have hdepth := hs.depth
  -- the trace that is taken is counted as explored only now, so its depth is below the new count
  have hpop {t : Trace} {f : Frontier Trace} (hp : s.frontier.pop? = some (t, f)) :
      t.steps.length - base ≤ s.statesExplored ∧ f.size ≤ p.capacity := by
    obtain ⟨r, hr⟩ := Frontier.toList_of_pop?_eq_some hp
    have ht : t.steps.length ≤ base + s.statesExplored :=
      hs.waiting (r, t) (hr ▸ List.mem_cons_self)
    have hsize := Frontier.size_of_pop?_eq_some hp
    have hle := hs.frontier
    exact ⟨by omega, by omega⟩
  cases h with
  | cut t f hp ht hd =>
      obtain ⟨htaken, hsize⟩ := hpop hp
      refine ⟨hwaiting, ?_, hsize, hs.peak⟩
      rw [hexplored]
      exact Nat.max_le.2 ⟨by omega, htaken⟩
  | expand t f hp ht hd =>
      obtain ⟨htaken, hsize⟩ := hpop hp
      have hall := tallies_considerAll (p := p) (t := t) (t.current.candidates p.rules)
        (taken base t f s)
      have hfrontier := Nat.le_trans hall.frontier (Nat.max_le.2 ⟨hsize, Nat.le_refl _⟩)
      refine ⟨hwaiting, ?_, hfrontier, ?_⟩
      · rw [hexplored]
        show (p.considerAll t _ (taken base t f s)).depthReached ≤ _
        rw [hall.depthReached]
        exact Nat.max_le.2 ⟨by omega, htaken⟩
      · show max (p.considerAll t _ (taken base t f s)).peakFrontier _ ≤ _
        rw [hall.peakFrontier]
        exact Nat.max_le.2 ⟨hs.peak, hfrontier⟩

theorem statesExplored_of_outcome {r : SearchResult} (h : Outcome a s r) :
    r.statesExplored = s.statesExplored := by
  cases h <;> rfl

theorem statesExplored_run_le (p : Prover) (base : Nat) (a : Cancellation) (n : Nat)
    (s : SearchState) : (p.run base a n s).1.statesExplored ≤ s.statesExplored + n := by
  induction n generalizing s with
  | zero =>
      rcases run_cases p base a 0 s with ⟨ho, _⟩ | ⟨m, s', hm, _⟩
      · exact Nat.le_of_eq (statesExplored_of_outcome ho)
      · omega
  | succ n ih =>
      rcases run_cases p base a (n + 1) s with ⟨ho, _⟩ | ⟨m, s', hm, hr, he⟩
      · rw [statesExplored_of_outcome ho]
        exact Nat.le_add_right _ _
      · obtain rfl : n = m := by omega
        rw [he]
        have hn := ih s'
        have hs' := statesExplored_round hr
        omega

theorem statesExplored_search_le (p : Prover) (seed : Trace) (a : Cancellation) :
    (p.search seed a).statesExplored ≤ p.config.maxStates := by
  have h := statesExplored_run_le p seed.steps.length a p.config.maxStates (p.start seed)
  have hstart : (p.start seed).statesExplored = 0 := by simp [start]
  rw [hstart, Nat.zero_add] at h
  exact h

theorem search_metered (p : Prover) (seed : Trace) (a : Cancellation) :
    (∀ t ∈ (p.search seed a).proof,
      t.steps.length ≤ seed.steps.length + (p.search seed a).statesExplored) ∧
    (p.search seed a).depthReached ≤ (p.search seed a).statesExplored - 1 ∧
    (p.search seed a).peakFrontier ≤ p.capacity := by
  obtain ⟨s, hs, ho⟩ := search_induction seed a (metered_start p seed) fun _ _ => metered_round
  generalize p.search seed a = r at ho
  cases ho with
  | aborted | exhausted | cut => exact ⟨nofun, hs.depth, hs.peak⟩
  | proved t f hp ht =>
      refine ⟨?_, hs.depth, hs.peak⟩
      intro u hu
      cases hu
      obtain ⟨r, hr⟩ := Frontier.toList_of_pop?_eq_some hp
      exact hs.waiting (r, t) (hr ▸ List.mem_cons_self)

theorem storable_search {n : Nat} (hseed : seed.Storable) (hn : seed.current.Within n)
    (hstates : n + 2 * (seed.steps.length + p.config.maxStates) < Json.wordLimit)
    (hfrontier : p.config.maxFrontier < Json.wordLimit)
    (hsuccessors : (p.search seed a).successorsGenerated < Json.wordLimit) :
    (p.search seed a).Storable := by
  have hexplored := statesExplored_search_le p seed a
  obtain ⟨hlength, hdepth, hpeak⟩ := search_metered p seed a
  refine ⟨?_, by omega, hsuccessors, by omega, ?_⟩
  · intro t ht
    have hlen := hlength t ht
    obtain ⟨_, s, hs⟩ := admitted_of_search ht
    exact (hs.continues.storable hseed hn (by omega)).1
  · have hone : 1 < Json.wordLimit := by decide
    exact Nat.lt_of_le_of_lt hpeak (Nat.max_lt.2 ⟨hone, hfrontier⟩)

end SpiderDiagrams.Prover
