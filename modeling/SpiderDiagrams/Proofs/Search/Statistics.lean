import Mathlib.Order.Bounds.Defs
import SpiderDiagrams.Proofs.Search.Bounds

namespace SpiderDiagrams.Prover

variable {p : Prover} {seed t : Trace} {s s' u : SearchState} {f : Frontier Trace} {base n : Nat}
  {a : Cancellation}

/-- The states through which a search goes on that may explore so many traces: the one between two
rounds, those after a trace is taken, and those after each candidate. -/
inductive Passes (p : Prover) (base : Nat) (a : Cancellation) :
    Nat → SearchState → SearchState → Prop
  | here (n : Nat) (s : SearchState) : Passes p base a n s s
  | popped {n : Nat} {s : SearchState} {t : Trace} {f : Frontier Trace}
      (ha : s.isCalledOff a = false) (hp : s.frontier.pop? = some (t, f)) :
      Passes p base a n s { s with frontier := f }
  | considered {n : Nat} {s : SearchState} {t : Trace} {f : Frontier Trace}
      {l : List (Nat × Candidate)} (ha : s.isCalledOff a = false)
      (hp : s.frontier.pop? = some (t, f)) (ht : t.isFinished = false)
      (hd : t.steps.length - base < p.config.maxDepth) (hl : l <+: t.current.candidates p.rules) :
      Passes p base a (n + 1) s (p.considerAll t l (taken base t f s))
  | later {n : Nat} {s u : SearchState} {t : Trace} {f : Frontier Trace}
      (ha : s.isCalledOff a = false) (hp : s.frontier.pop? = some (t, f))
      (ht : t.isFinished = false)
      (h : Passes p base a n (p.explore base t { s with frontier := f }) u) :
      Passes p base a (n + 1) s u

/-- A trace is beyond the first so many steps by no more than the depth bound, and by at most one step
more than the depth that was reached. -/
structure InReach (p : Prover) (base depth : Nat) (t : Trace) : Prop where
  beyond : base ≤ t.steps.length
  bound : t.steps.length ≤ base + p.config.maxDepth
  next : t.steps.length ≤ base + depth + 1

/-- The numbers of a search that began with so many steps. -/
structure Reckoned (p : Prover) (base : Nat) (s : SearchState) : Prop where
  waiting : ∀ x ∈ s.frontier.toList, InReach p base s.depthReached x.2
  depth : s.depthReached ≤ p.config.maxDepth
  successors : s.statesExplored + s.frontier.size ≤ s.successorsGenerated + 1
  peak : 1 ≤ s.peakFrontier

@[simp]
theorem successorsGenerated_enqueue (t : Trace) (s : SearchState) :
    (p.enqueue t s).successorsGenerated = s.successorsGenerated := by
  rw [enqueue]
  cases p.estimate t <;> rfl

theorem size_frontier_start (p : Prover) (seed : Trace) : (p.start seed).frontier.size = 1 := by
  rw [← Frontier.length_toList, toList_frontier_start]
  rfl

theorem reckoned_start (p : Prover) (seed : Trace) : Reckoned p seed.steps.length (p.start seed) := by
  have hsize := size_frontier_start p seed
  refine ⟨?_, ?_, ?_, ?_⟩
  · intro x hx
    rw [toList_frontier_start, List.mem_singleton] at hx
    rw [hx]
    exact ⟨Nat.le_refl _, Nat.le_add_right _ _, Nat.le_add_right_of_le (Nat.le_add_right _ _)⟩
  · simp [start]
  · rw [hsize]
    simp [start]
  · exact Nat.le_of_eq hsize.symm

theorem reckoned_considers {i : Nat} {c : Candidate} (hbeyond : base ≤ t.steps.length)
    (hbelow : t.steps.length < base + p.config.maxDepth) (h : Considers p t i c s s')
    (hs : Reckoned p base s ∧ t.steps.length ≤ base + s.depthReached) :
    Reckoned p base s' ∧ t.steps.length ≤ base + s'.depthReached := by
  obtain ⟨hs, ht⟩ := hs
  cases h with
  | rejected => exact ⟨⟨hs.waiting, hs.depth, hs.successors, hs.peak⟩, ht⟩
  | duplicate | dropped =>
      exact ⟨⟨hs.waiting, hs.depth, Nat.le_succ_of_le hs.successors, hs.peak⟩, ht⟩
  | queued g ha hv hf =>
      rw [depthReached_enqueue]
      refine ⟨⟨?_, ?_, ?_, ?_⟩, ht⟩
      · intro x hx
        rw [frontier_enqueue, Frontier.mem_toList_push] at hx
        rw [depthReached_enqueue]
        rcases hx with rfl | hx
        · exact ⟨Nat.le_succ_of_le hbeyond, hbelow, Nat.succ_le_succ ht⟩
        · exact hs.waiting x hx
      · rw [depthReached_enqueue]
        exact hs.depth
      · rw [frontier_enqueue, statesExplored_enqueue, successorsGenerated_enqueue]
        exact Nat.succ_le_succ hs.successors
      · rw [peakFrontier_enqueue]
        exact hs.peak

theorem inReach_of_pop? (hs : Reckoned p base s) (hp : s.frontier.pop? = some (t, f)) :
    InReach p base s.depthReached t ∧ ∀ x ∈ f.toList, InReach p base s.depthReached x.2 := by
  obtain ⟨r, hr⟩ := Frontier.toList_of_pop?_eq_some hp
  have hwaiting := hs.waiting
  rw [hr, List.forall_mem_cons] at hwaiting
  exact hwaiting

theorem reckoned_taken (hs : Reckoned p base s) (hp : s.frontier.pop? = some (t, f)) :
    Reckoned p base (taken base t f s) ∧ t.steps.length ≤ base + (taken base t f s).depthReached := by
  obtain ⟨ht, hwaiting⟩ := inReach_of_pop? hs hp
  have hbound := ht.bound
  have hleft := Nat.le_max_left s.depthReached (t.steps.length - base)
  have hright := Nat.le_max_right s.depthReached (t.steps.length - base)
  refine ⟨⟨?_, ?_, ?_, hs.peak⟩, ?_⟩
  · intro x hx
    have hnext := (hwaiting x hx).next
    refine ⟨(hwaiting x hx).beyond, (hwaiting x hx).bound, ?_⟩
    show x.2.steps.length ≤ base + max s.depthReached (t.steps.length - base) + 1
    omega
  · exact Nat.max_le.2 ⟨hs.depth, by omega⟩
  · have hsize := Frontier.size_of_pop?_eq_some hp
    have hsuccessors := hs.successors
    show s.statesExplored + 1 + f.size ≤ s.successorsGenerated + 1
    omega
  · show t.steps.length ≤ base + max s.depthReached (t.steps.length - base)
    omega

theorem reckoned_considerAll (hs : Reckoned p base s) (hp : s.frontier.pop? = some (t, f))
    (hd : t.steps.length - base < p.config.maxDepth) (l : List (Nat × Candidate)) :
    Reckoned p base (p.considerAll t l (taken base t f s)) := by
  have hbeyond := (inReach_of_pop? hs hp).1.beyond
  have hbelow : t.steps.length < base + p.config.maxDepth := by omega
  have hall := considerAll_induction (p := p) (t := t) l
    (fun _ _ _ _ _ hu hc => reckoned_considers hbeyond hbelow hc hu) (reckoned_taken hs hp)
  exact hall.1

theorem reckoned_round (hs : Reckoned p base s) (h : Round p base s s') : Reckoned p base s' := by
  cases h with
  | cut t f hp ht hd =>
      obtain ⟨hwaiting, hdepth, hsuccessors, hpeak⟩ := (reckoned_taken hs hp).1
      exact ⟨hwaiting, hdepth, hsuccessors, hpeak⟩
  | expand t f hp ht hd =>
      obtain ⟨hwaiting, hdepth, hsuccessors, hpeak⟩ :=
        reckoned_considerAll hs hp hd (t.current.candidates p.rules)
      exact ⟨hwaiting, hdepth, hsuccessors, Nat.le_trans hpeak (Nat.le_max_left _ _)⟩

theorem reckoned_passes (h : Passes p base a n s u) (hs : Reckoned p base s) : Reckoned p base u := by
  induction h with
  | here => exact hs
  | popped ha hp =>
      have hsize := Frontier.size_of_pop?_eq_some hp
      have hsuccessors := hs.successors
      exact ⟨(inReach_of_pop? hs hp).2, hs.depth, by dsimp only; omega, hs.peak⟩
  | considered ha hp ht hd hl => exact reckoned_considerAll hs hp hd _
  | later ha hp ht h ih => exact ih (reckoned_round hs (round_explore hp ht))

theorem ends_or_explores (p : Prover) (base : Nat) (a : Cancellation) (n : Nat) (s : SearchState) :
    Outcome a s (p.run base a n s).1 ∨ ∃ m t f, n = m + 1 ∧ s.isCalledOff a = false ∧
      s.frontier.pop? = some (t, f) ∧ t.isFinished = false := by
  cases ha : s.isCalledOff a with
  | true =>
      rw [run]
      simp only [ha, if_true]
      exact .inl (.aborted ha)
  | false =>
      rcases run_cases p base a n s with ⟨ho, _⟩ | ⟨m, s', hm, hr, _⟩
      · exact .inl ho
      · cases hr with
        | cut t f hp ht | expand t f hp ht => exact .inr ⟨m, t, f, hm, rfl, hp, ht⟩

theorem peakFrontier_of_outcome {r : SearchResult} (h : Outcome a s r) :
    r.peakFrontier = s.peakFrontier := by
  cases h <;> rfl

theorem size_le_considerAll (t : Trace) (l : List (Nat × Candidate)) (s : SearchState) :
    s.frontier.size ≤ (p.considerAll t l s).frontier.size := by
  apply considerAll_induction (P := fun u => s.frontier.size ≤ u.frontier.size) l ?_ (Nat.le_refl _)
  intro i c u u' _ hu hc
  cases hc with
  | rejected | duplicate | dropped => exact hu
  | queued =>
      rw [frontier_enqueue]
      exact Nat.le_succ_of_le hu

theorem considerAll_append (t : Trace) (l m : List (Nat × Candidate)) (s : SearchState) :
    p.considerAll t (l ++ m) s = p.considerAll t m (p.considerAll t l s) :=
  List.foldl_append

theorem peak_round (hs : s.frontier.size ≤ s.peakFrontier) (h : Round p base s s') :
    s'.frontier.size ≤ s'.peakFrontier ∧ s.peakFrontier ≤ s'.peakFrontier := by
  cases h with
  | cut t f hp ht hd =>
      have hsize := Frontier.size_of_pop?_eq_some hp
      exact ⟨show f.size ≤ s.peakFrontier by omega, Nat.le_refl _⟩
  | expand t f hp ht hd =>
      have htally := tallies_considerAll (p := p) (t := t) (t.current.candidates p.rules)
        (taken base t f s)
      refine ⟨Nat.le_max_right _ _, Nat.le_trans (Nat.le_of_eq ?_) (Nat.le_max_left _ _)⟩
      exact htally.peakFrontier.symm

theorem peakFrontier_le_run (p : Prover) (base : Nat) (a : Cancellation) (n : Nat)
    (hs : s.frontier.size ≤ s.peakFrontier) :
    s.peakFrontier ≤ (p.run base a n s).1.peakFrontier := by
  induction n generalizing s with
  | zero =>
      rcases ends_or_explores p base a 0 s with ho | ⟨m, _, _, hm, _⟩
      · exact Nat.le_of_eq (peakFrontier_of_outcome ho).symm
      · cases hm
  | succ n ih =>
      rcases ends_or_explores p base a (n + 1) s with ho | ⟨m, t, f, hm, ha, hp, ht⟩
      · exact Nat.le_of_eq (peakFrontier_of_outcome ho).symm
      · have hround : Round p base s (p.explore base t { s with frontier := f }) :=
          round_explore hp ht
        obtain ⟨hsize, hpeak⟩ := peak_round hs hround
        rw [run_succ ha hp ht]
        exact Nat.le_trans hpeak (ih hsize)

theorem size_le_of_passes (h : Passes p base a n s u) (hs : s.frontier.size ≤ s.peakFrontier) :
    u.frontier.size ≤ (p.run base a n s).1.peakFrontier := by
  induction h with
  | here n s => exact Nat.le_trans hs (peakFrontier_le_run p base a n hs)
  | @popped n s t f ha hp =>
      have hsize := Frontier.size_of_pop?_eq_some hp
      have hpeak := peakFrontier_le_run p base a n hs
      show f.size ≤ _
      omega
  | @considered n s t f l ha hp ht hd hl =>
      obtain ⟨m, hm⟩ := hl
      -- the candidates that are still to come only add to the frontier, and then the peak is taken
      have hround : Round p base s (p.explore base t { s with frontier := f }) :=
        round_explore hp ht
      rw [run_succ ha hp ht]
      refine Nat.le_trans ?_ (peakFrontier_le_run p base a n (peak_round hs hround).1)
      rw [explore_eq, if_neg (Nat.not_le_of_lt hd), ← hm, considerAll_append]
      exact Nat.le_trans (size_le_considerAll t m _) (Nat.le_max_right _ _)
  | later ha hp ht h ih =>
      rw [run_succ ha hp ht]
      exact ih (peak_round hs (round_explore hp ht)).1

theorem exists_passes_of_peak (p : Prover) (base : Nat) (a : Cancellation) (n : Nat)
    (s : SearchState) :
    (p.run base a n s).1.peakFrontier = s.peakFrontier ∨
      ∃ u, Passes p base a n s u ∧ u.frontier.size = (p.run base a n s).1.peakFrontier := by
  induction n generalizing s with
  | zero =>
      rcases ends_or_explores p base a 0 s with ho | ⟨m, _, _, hm, _⟩
      · exact .inl (peakFrontier_of_outcome ho)
      · cases hm
  | succ n ih =>
      rcases ends_or_explores p base a (n + 1) s with ho | ⟨m, t, f, hm, ha, hp, ht⟩
      · exact .inl (peakFrontier_of_outcome ho)
      rw [run_succ ha hp ht]
      rcases ih (p.explore base t { s with frontier := f }) with hpeak | ⟨u, hu, hsize⟩
      · rw [hpeak, explore_eq]
        by_cases hd : p.config.maxDepth ≤ t.steps.length - base
        · rw [if_pos hd]
          exact .inl rfl
        · rw [if_neg hd]
          have htally := tallies_considerAll (p := p) (t := t) (t.current.candidates p.rules)
            (taken base t f s)
          rcases Nat.le_total (p.considerAll t (t.current.candidates p.rules)
              (taken base t f s)).frontier.size s.peakFrontier with hle | hle
          · refine .inl ((Nat.max_eq_left ?_).trans htally.peakFrontier)
            rw [htally.peakFrontier]
            exact hle
          · refine .inr ⟨_, .considered ha hp ht (Nat.lt_of_not_le hd) List.prefix_rfl, ?_⟩
            refine (Nat.max_eq_right ?_).symm
            rw [htally.peakFrontier]
            exact hle
      · exact .inr ⟨u, .later ha hp ht hu, hsize⟩

theorem isGreatest_peak (p : Prover) (seed : Trace) (a : Cancellation) :
    IsGreatest {k | ∃ s, Passes p seed.steps.length a p.config.maxStates (p.start seed) s ∧
      s.frontier.size = k} (p.search seed a).peakFrontier := by
  constructor
  · rcases exists_passes_of_peak p seed.steps.length a p.config.maxStates (p.start seed) with h | h
    · exact ⟨_, .here _ _, h.symm⟩
    · exact h
  · rintro _ ⟨s, hs, rfl⟩
    exact size_le_of_passes hs (Nat.le_refl _)

theorem search_reckoned (p : Prover) (seed : Trace) (a : Cancellation) :
    (p.search seed a).depthReached ≤ p.config.maxDepth ∧ 1 ≤ (p.search seed a).peakFrontier ∧
      (p.search seed a).statesExplored ≤ (p.search seed a).successorsGenerated + 1 ∧
      ∀ t, (p.search seed a).proof = some t →
        t.steps.length ≤ seed.steps.length + (p.search seed a).depthReached + 1 := by
  obtain ⟨s, hs, ho⟩ := search_induction seed a (reckoned_start p seed) fun _ _ => reckoned_round
  have hexplored : s.statesExplored ≤ s.successorsGenerated + 1 :=
    Nat.le_trans (Nat.le_add_right _ _) hs.successors
  generalize p.search seed a = r at ho
  cases ho with
  | aborted | exhausted | cut => exact ⟨hs.depth, hs.peak, hexplored, nofun⟩
  | proved t f hp ht =>
      refine ⟨hs.depth, hs.peak, hexplored, ?_⟩
      intro u hu
      cases hu
      exact (inReach_of_pop? hs hp).1.next

/-- The statistics of a search, whatever its seed, rules, strategy and settings are and whenever it is
called off. The traces and depths that were explored keep to the bounds, and so does the peak, which
is the largest number of traces that wait in a state on the way. Each explored trace but the first was
generated, and a depth is reached only through all smaller ones. A proof goes at most one step beyond
the depth that was reached, and no trace that is taken is shorter than the seed. -/
theorem search_statistics (p : Prover) (seed : Trace) (a : Cancellation) :
    let r := p.search seed a
    let passes := Passes p seed.steps.length a p.config.maxStates (p.start seed)
    r.statesExplored ≤ p.config.maxStates ∧ r.depthReached ≤ p.config.maxDepth ∧
      1 ≤ r.peakFrontier ∧ r.peakFrontier ≤ max 1 p.config.maxFrontier ∧
      IsGreatest {k | ∃ s, passes s ∧ s.frontier.size = k} r.peakFrontier ∧
      r.statesExplored ≤ r.successorsGenerated + 1 ∧
      (0 < r.statesExplored → r.depthReached < r.statesExplored) ∧
      (∀ t, r.proof = some t → seed.applications <+: t.applications ∧
        t.applications.length ≤ seed.applications.length + (r.depthReached + 1)) ∧
      ∀ s t f, passes s → s.frontier.pop? = some (t, f) →
        seed.applications.length ≤ t.applications.length := by
  intro r passes
  obtain ⟨hdepth, hpeak, hexplored, hproof⟩ := search_reckoned p seed a
  obtain ⟨_, hbelow, hcapacity⟩ := search_metered p seed a
  refine ⟨statesExplored_search_le p seed a, hdepth, hpeak, hcapacity, isGreatest_peak p seed a,
    hexplored, ?_, ?_, ?_⟩
  · intro hpos
    have hle : r.depthReached ≤ r.statesExplored - 1 := hbelow
    omega
  · intro t ht
    obtain ⟨_, s, hs⟩ := admitted_of_search ht
    refine ⟨hs.continues.applications_extend, ?_⟩
    rw [Trace.length_applications, Trace.length_applications]
    exact hproof t ht
  · intro s t f hs hp
    rw [Trace.length_applications, Trace.length_applications]
    exact (inReach_of_pop? (reckoned_passes hs (reckoned_start p seed)) hp).1.beyond

theorem search_statistics_begun :
    let p := ofConfig { maxDepth := 2, maxFrontier := 1 } [.doubleNegationElimination]
    let r := p.search begun .never
    r.statesExplored = 2 ∧ r.depthReached < r.statesExplored ∧
      (∃ t, r.proof = some t ∧ t.applications.length = begun.applications.length + 2 ∧
        t.applications.length ≤ begun.applications.length + (r.depthReached + 1)) ∧
      ∃ t f, (p.start begun).frontier.pop? = some (t, f) ∧
        begun.applications.length ≤ t.applications.length := by
  intro p r
  obtain ⟨_, _, _, _, _, _, hdepth, hproof, htaken⟩ := search_statistics p begun .never
  have hexplored : r.statesExplored = 2 := by
    show (p.search begun .never).statesExplored = 2
    rw [search_eq_searchListed]
    rfl
  have hlength : r.proof.map (·.applications.length) = some 3 := by
    show (p.search begun .never).proof.map (·.applications.length) = some 3
    rw [search_eq_searchListed]
    rfl
  obtain ⟨t, ht, hthree⟩ := Option.map_eq_some_iff.1 hlength
  have hpop : (p.start begun).frontier.pop? = some (begun, ⟨[(1, ⟨[], []⟩)], 0, by simp, rfl⟩) := rfl
  refine ⟨hexplored, hdepth (by rw [hexplored]; decide), ⟨t, ht, hthree, (hproof t ht).2⟩, ?_⟩
  exact ⟨begun, _, hpop, htaken _ _ _ (.here _ _) hpop⟩

end SpiderDiagrams.Prover
