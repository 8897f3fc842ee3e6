import Mathlib.Logic.Relation
import SpiderDiagrams.Proofs.Search.Frontier
import SpiderDiagrams.Search.Prover

/-!
A search as a sequence of rounds. `Considers` says all that one candidate can do to a search,
`Round` all that one trace taken from the frontier can do, and `Outcome` how a search can end;
every search is some rounds and an outcome (`search_ends`), so an invariant of rounds holds where
a search ends (`search_induction`).
-/

namespace SpiderDiagrams.Prover

variable {p : Prover} {t : Trace} {i base : Nat} {c : Candidate} {s s' : SearchState}

@[simp]
theorem frontier_enqueue (t : Trace) (s : SearchState) :
    (p.enqueue t s).frontier = s.frontier.push (p.rank t) t := by
  rw [enqueue]
  cases p.estimate t <;> rfl

@[simp]
theorem visited_enqueue (t : Trace) (s : SearchState) : (p.enqueue t s).visited = s.visited := by
  rw [enqueue]
  cases p.estimate t <;> rfl

@[simp]
theorem boundReached_enqueue (t : Trace) (s : SearchState) :
    (p.enqueue t s).boundReached = s.boundReached := by
  rw [enqueue]
  cases p.estimate t <;> rfl

@[simp]
theorem statesExplored_enqueue (t : Trace) (s : SearchState) :
    (p.enqueue t s).statesExplored = s.statesExplored := by
  rw [enqueue]
  cases p.estimate t <;> rfl

theorem toList_frontier_start (p : Prover) (seed : Trace) :
    (p.start seed).frontier.toList = [(p.rank seed, seed)] := by
  simp [start, Frontier.toList_push]

theorem mem_visited_start {p : Prover} {seed : Trace} {k : Goals} :
    k ∈ (p.start seed).visited ↔ ∃ g ∈ seed.states, p.key g = k := by
  simp [start]

def generated (s : SearchState) : SearchState :=
  { s with successorsGenerated := s.successorsGenerated + 1 }

/-- How a candidate for the goals of a trace changes a search. -/
inductive Considers (p : Prover) (t : Trace) (i : Nat) (c : Candidate) (s : SearchState) :
    SearchState → Prop
  | rejected (e : RuleError) (h : c.rule.apply (c.argument i) t.current = .error e) :
      Considers p t i c s (s.note (.rejected c.rule (c.argument i) e))
  | duplicate (g : Goals) (h : c.rule.apply (c.argument i) t.current = .ok g)
      (hv : p.key g ∈ s.visited) :
      Considers p t i c s ((generated s).note (.duplicate c.rule (c.argument i)))
  | dropped (g : Goals) (h : c.rule.apply (c.argument i) t.current = .ok g)
      (hv : p.key g ∉ s.visited) (hf : p.config.maxFrontier ≤ s.frontier.size) :
      Considers p t i c s { generated s with boundReached := true }
  | queued (g : Goals) (h : c.rule.apply (c.argument i) t.current = .ok g)
      (hv : p.key g ∉ s.visited) (hf : s.frontier.size < p.config.maxFrontier) :
      Considers p t i c s (p.enqueue (t.push ⟨c.rule.name, c.argument i, .automatic⟩ g)
        { generated s with visited := s.visited.insert (p.key g) })

theorem considers_consider (p : Prover) (t : Trace) (s : SearchState) (i : Nat) (c : Candidate) :
    Considers p t i c s (p.consider t s i c) := by
  rw [consider]
  cases h : c.rule.apply (c.argument i) t.current with
  | error e => exact .rejected e h
  | ok g =>
      by_cases hv : p.key g ∈ s.visited
      · simp only [Std.HashSet.contains_iff_mem.2 hv, if_true]
        exact .duplicate g h hv
      · have hc : s.visited.contains (p.key g) = false := by
          rw [← Bool.not_eq_true, Std.HashSet.contains_iff_mem]
          exact hv
        by_cases hf : p.config.maxFrontier ≤ s.frontier.size
        · simp only [hc, hf, if_true, Bool.false_eq_true, if_false]
          exact .dropped g h hv hf
        · simp only [hc, hf, Bool.false_eq_true, if_false]
          exact .queued g h hv (Nat.lt_of_not_le hf)

def considerAll (p : Prover) (t : Trace) (l : List (Nat × Candidate)) (s : SearchState) :
    SearchState :=
  l.foldl (fun s (i, c) => p.consider t s i c) s

theorem considerAll_induction {P : SearchState → Prop} (l : List (Nat × Candidate))
    (hstep : ∀ i c s s', (i, c) ∈ l → P s → Considers p t i c s s' → P s') (h : P s) :
    P (p.considerAll t l s) := by
  induction l generalizing s with
  | nil => exact h
  | cons x l ih =>
      obtain ⟨i, c⟩ := x
      apply ih
      · intro j d u u' hm
        exact hstep j d u u' (List.mem_cons_of_mem _ hm)
      · exact hstep i c s _ List.mem_cons_self h (considers_consider p t s i c)

def taken (base : Nat) (t : Trace) (f : Frontier Trace) (s : SearchState) : SearchState :=
  { s with
    frontier := f
    statesExplored := s.statesExplored + 1
    depthReached := max s.depthReached (t.steps.length - base) }

def expanded (depth before : Nat) (r : SearchState) : SearchState :=
  { r with peakFrontier := max r.peakFrontier r.frontier.size }.note
    (.expanded depth (r.ranked - before) r.frontier.size)

/-- One round: the next trace is unfinished, and it is left at the depth bound or expanded. -/
inductive Round (p : Prover) (base : Nat) (s : SearchState) : SearchState → Prop
  | cut (t : Trace) (f : Frontier Trace) (h : s.frontier.pop? = some (t, f))
      (ht : t.isFinished = false) (hd : p.config.maxDepth ≤ t.steps.length - base) :
      Round p base s { taken base t f s with boundReached := true }
  | expand (t : Trace) (f : Frontier Trace) (h : s.frontier.pop? = some (t, f))
      (ht : t.isFinished = false) (hd : t.steps.length - base < p.config.maxDepth) :
      Round p base s (expanded (t.steps.length - base) s.ranked
        (p.considerAll t (t.current.candidates p.rules) (taken base t f s)))

theorem statesExplored_round (h : Round p base s s') :
    s'.statesExplored = s.statesExplored + 1 := by
  cases h with
  | cut => rfl
  | expand t f hp ht hd =>
      apply considerAll_induction (P := fun u => u.statesExplored = s.statesExplored + 1)
        (t.current.candidates p.rules) ?_ rfl
      intro i c u u' _ hu hstep
      cases hstep with
      | rejected | duplicate | dropped => exact hu
      | queued g ha hv hf =>
          rw [statesExplored_enqueue]
          exact hu

theorem explore_eq (p : Prover) (base : Nat) (t : Trace) (f : Frontier Trace) (s : SearchState) :
    p.explore base t { s with frontier := f } =
      if p.config.maxDepth ≤ t.steps.length - base then { taken base t f s with boundReached := true }
      else expanded (t.steps.length - base) s.ranked
        (p.considerAll t (t.current.candidates p.rules) (taken base t f s)) := rfl

theorem round_explore {f : Frontier Trace} (h : s.frontier.pop? = some (t, f))
    (ht : t.isFinished = false) : Round p base s (p.explore base t { s with frontier := f }) := by
  rw [explore_eq]
  by_cases hd : p.config.maxDepth ≤ t.steps.length - base
  · rw [if_pos hd]
    exact .cut t f h ht hd
  · rw [if_neg hd]
    exact .expand t f h ht (Nat.lt_of_not_le hd)

section Run

variable {a : Cancellation} {f : Frontier Trace}

theorem run_of_raised (ha : s.isCalledOff a = true) (n : Nat) :
    (p.run base a n s).1 = s.finish .aborted none := by
  rw [run]
  simp [ha]

theorem run_of_empty (ha : s.isCalledOff a = false) (hp : s.frontier.pop? = none) (n : Nat) :
    (p.run base a n s).1 = s.finish .exhausted none := by
  rw [run]
  simp [ha, hp]

theorem run_of_finished (ha : s.isCalledOff a = false) (hp : s.frontier.pop? = some (t, f))
    (ht : t.isFinished = true) (n : Nat) : (p.run base a n s).1 = s.finish .proved t := by
  rw [run]
  simp [ha, hp, ht]

theorem run_zero (ha : s.isCalledOff a = false) (hp : s.frontier.pop? = some (t, f))
    (ht : t.isFinished = false) :
    (p.run base a 0 s).1 = { s with boundReached := true }.finish .exhausted none := by
  rw [run]
  simp [ha, hp, ht]

theorem run_succ (ha : s.isCalledOff a = false) (hp : s.frontier.pop? = some (t, f))
    (ht : t.isFinished = false) (n : Nat) :
    p.run base a (n + 1) s = p.run base a n (p.explore base t { s with frontier := f }) := by
  rw [run]
  simp [ha, hp, ht]

end Run

/-- How a search ends, with the state in which it does. -/
inductive Outcome (a : Cancellation) (s : SearchState) : SearchResult → Prop
  | aborted (h : s.isCalledOff a = true) : Outcome a s (s.finish .aborted none)
  | exhausted (h : s.frontier.pop? = none) : Outcome a s (s.finish .exhausted none)
  | proved (t : Trace) (f : Frontier Trace) (h : s.frontier.pop? = some (t, f))
      (ht : t.isFinished = true) : Outcome a s (s.finish .proved (some t))
  | cut (t : Trace) (f : Frontier Trace) (h : s.frontier.pop? = some (t, f))
      (ht : t.isFinished = false) :
      Outcome a s ({ s with boundReached := true }.finish .exhausted none)

theorem run_cases (p : Prover) (base : Nat) (a : Cancellation) (n : Nat) (s : SearchState) :
    (Outcome a s (p.run base a n s).1 ∧
        (n = 0 ∨ (p.run base a n s).1.boundReached = s.boundReached)) ∨
      ∃ m s', n = m + 1 ∧ Round p base s s' ∧ p.run base a n s = p.run base a m s' := by
  rw [run]
  by_cases ha : s.isCalledOff a
  · simp only [ha, if_true]
    exact .inl ⟨.aborted ha, .inr rfl⟩
  · simp only [ha, Bool.false_eq_true, if_false]
    cases hp : s.frontier.pop? with
    | none => exact .inl ⟨.exhausted hp, .inr rfl⟩
    | some x =>
        obtain ⟨t, f⟩ := x
        by_cases ht : t.isFinished
        · simp only [ht, if_true]
          exact .inl ⟨.proved t f hp ht, .inr rfl⟩
        · have ht' : t.isFinished = false := Bool.not_eq_true _ ▸ ht
          simp only [ht', Bool.false_eq_true, if_false]
          cases n with
          | zero => exact .inl ⟨.cut t f hp ht', .inl rfl⟩
          | succ n => exact .inr ⟨n, _, rfl, round_explore hp ht', rfl⟩

theorem run_ends (p : Prover) (base : Nat) (a : Cancellation) (n : Nat) (s : SearchState) :
    ∃ s', Relation.ReflTransGen (Round p base) s s' ∧ Outcome a s' (p.run base a n s).1 := by
  induction n generalizing s with
  | zero =>
      rcases run_cases p base a 0 s with ⟨ho, _⟩ | ⟨m, s', hm, _⟩
      · exact ⟨s, .refl, ho⟩
      · omega
  | succ n ih =>
      rcases run_cases p base a (n + 1) s with ⟨ho, _⟩ | ⟨m, s', hm, hr, he⟩
      · exact ⟨s, .refl, ho⟩
      · obtain rfl : n = m := by omega
        obtain ⟨u, hu, ho⟩ := ih s'
        rw [he]
        exact ⟨u, .head hr hu, ho⟩

theorem search_ends (p : Prover) (seed : Trace) (a : Cancellation) :
    ∃ s, Relation.ReflTransGen (Round p seed.steps.length) (p.start seed) s ∧
      Outcome a s (p.search seed a) :=
  run_ends p seed.steps.length a p.config.maxStates (p.start seed)

/-- What holds at the start and after every round holds where a search ends. -/
theorem search_induction {P : SearchState → Prop} (seed : Trace) (a : Cancellation)
    (hstart : P (p.start seed))
    (hround : ∀ s s', P s → Round p seed.steps.length s s' → P s') :
    ∃ s, P s ∧ Outcome a s (p.search seed a) := by
  obtain ⟨s, hs, ho⟩ := search_ends p seed a
  refine ⟨s, ?_, ho⟩
  clear ho
  induction hs with
  | refl => exact hstart
  | tail _ hr ih => exact hround _ _ ih hr

end SpiderDiagrams.Prover
