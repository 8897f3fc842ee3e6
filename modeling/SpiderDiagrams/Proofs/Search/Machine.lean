import SpiderDiagrams.Proofs.Search.Round

namespace SpiderDiagrams.Prover

/-- Where a search is: about to take a trace, of which so many are left; among the candidates for one
that it has taken, with the number of traces ranked before; or at its end. -/
inductive Cursor where
  | head (left : Nat)
  | body (left : Nat) (t : Trace) (ranked : Nat) (rest : List (Nat × Candidate))
  | over (r : SearchResult)

/-- The traces that were put into the frontier and those that were taken from it, earliest first. -/
structure Ledger where
  pushed : List Trace
  popped : List Trace

namespace Ledger

def push (b : Ledger) (t : Trace) : Ledger := { b with pushed := b.pushed ++ [t] }

def pop (b : Ledger) (t : Trace) : Ledger := { b with popped := b.popped ++ [t] }

end Ledger

structure Moment where
  cursor : Cursor
  state : SearchState
  ledger : Ledger

def opening (p : Prover) (seed : Trace) : Moment :=
  ⟨.head p.config.maxStates, p.start seed, ⟨[seed], []⟩⟩

variable {p : Prover} {base n k i : Nat} {a : Cancellation} {s : SearchState} {b : Ledger} {t : Trace}
  {f : Frontier Trace} {c : Candidate} {l : List (Nat × Candidate)} {m m' : Moment}
  {r : SearchResult}

/-- One move. What is entered in the ledger is what is done to the frontier: at the head of the loop a
trace is popped, and a candidate is followed by a push or leaves the frontier as it is. -/
inductive Moves (p : Prover) (base : Nat) (a : Cancellation) : Moment → Moment → Prop
  | abort {n : Nat} {s : SearchState} {b : Ledger} (ha : s.isCalledOff a = true) :
      Moves p base a ⟨.head n, s, b⟩ ⟨.over (s.finish .aborted none), s, b⟩
  | exhaust {n : Nat} {s : SearchState} {b : Ledger} (ha : s.isCalledOff a = false)
      (hp : s.frontier.pop? = none) :
      Moves p base a ⟨.head n, s, b⟩ ⟨.over (s.finish .exhausted none), s, b⟩
  | prove {n : Nat} {s : SearchState} {b : Ledger} {t : Trace} {f : Frontier Trace}
      (ha : s.isCalledOff a = false) (hp : s.frontier.pop? = some (t, f))
      (ht : t.isFinished = true) :
      Moves p base a ⟨.head n, s, b⟩
        ⟨.over (s.finish .proved (some t)), { s with frontier := f }, b.pop t⟩
  | stop {s : SearchState} {b : Ledger} {t : Trace} {f : Frontier Trace}
      (ha : s.isCalledOff a = false) (hp : s.frontier.pop? = some (t, f))
      (ht : t.isFinished = false) :
      Moves p base a ⟨.head 0, s, b⟩
        ⟨.over ({ s with boundReached := true }.finish .exhausted none), { s with frontier := f },
          b.pop t⟩
  | cut {n : Nat} {s : SearchState} {b : Ledger} {t : Trace} {f : Frontier Trace}
      (ha : s.isCalledOff a = false) (hp : s.frontier.pop? = some (t, f))
      (ht : t.isFinished = false) (hd : p.config.maxDepth ≤ t.steps.length - base) :
      Moves p base a ⟨.head (n + 1), s, b⟩
        ⟨.head n, { taken base t f s with boundReached := true }, b.pop t⟩
  | take {n : Nat} {s : SearchState} {b : Ledger} {t : Trace} {f : Frontier Trace}
      (ha : s.isCalledOff a = false) (hp : s.frontier.pop? = some (t, f))
      (ht : t.isFinished = false) (hd : t.steps.length - base < p.config.maxDepth) :
      Moves p base a ⟨.head (n + 1), s, b⟩
        ⟨.body n t s.ranked (t.current.candidates p.rules), taken base t f s, b.pop t⟩
  | queue {n k i : Nat} {s : SearchState} {b : Ledger} {t u : Trace} {c : Candidate}
      {l : List (Nat × Candidate)}
      (hf : (p.consider t s i c).frontier = s.frontier.push (p.rank u) u) :
      Moves p base a ⟨.body n t k ((i, c) :: l), s, b⟩
        ⟨.body n t k l, p.consider t s i c, b.push u⟩
  | pass {n k i : Nat} {s : SearchState} {b : Ledger} {t : Trace} {c : Candidate}
      {l : List (Nat × Candidate)} (hf : (p.consider t s i c).frontier = s.frontier) :
      Moves p base a ⟨.body n t k ((i, c) :: l), s, b⟩ ⟨.body n t k l, p.consider t s i c, b⟩
  | close {n k : Nat} {s : SearchState} {b : Ledger} {t : Trace} :
      Moves p base a ⟨.body n t k [], s, b⟩
        ⟨.head n, expanded (t.steps.length - base) k s, b⟩

abbrev Reaches (p : Prover) (base : Nat) (a : Cancellation) : Moment → Moment → Prop :=
  Relation.ReflTransGen (Moves p base a)

/-- The result of a search that goes on from a moment. -/
def result (p : Prover) (base : Nat) (a : Cancellation) (m : Moment) : SearchResult :=
  match m.cursor with
  | .head n => (p.run base a n m.state).1
  | .body n t k l =>
    (p.run base a n (expanded (t.steps.length - base) k (p.considerAll t l m.state))).1
  | .over r => r

theorem result_of_moves (h : Moves p base a m m') : p.result base a m' = p.result base a m := by
  cases h with
  | abort ha => exact (run_of_raised ha _).symm
  | exhaust ha hp => exact (run_of_empty ha hp _).symm
  | prove ha hp ht => exact (run_of_finished ha hp ht _).symm
  | stop ha hp ht => exact (run_zero ha hp ht).symm
  | cut ha hp ht hd =>
      simp only [result]
      rw [run_succ ha hp ht, explore_eq, if_pos hd]
  | take ha hp ht hd =>
      simp only [result]
      rw [run_succ ha hp ht, explore_eq, if_neg (Nat.not_le_of_lt hd)]
  | queue | pass | close => rfl

theorem result_of_reaches (h : Reaches p base a m m') : p.result base a m' = p.result base a m := by
  induction h with
  | refl => rfl
  | tail _ hm ih => exact (result_of_moves hm).trans ih

theorem exists_moves_consider (p : Prover) (base : Nat) (a : Cancellation) (n k : Nat) (t : Trace)
    (i : Nat) (c : Candidate) (l : List (Nat × Candidate)) (s : SearchState) (b : Ledger) :
    ∃ b', Moves p base a ⟨.body n t k ((i, c) :: l), s, b⟩
      ⟨.body n t k l, p.consider t s i c, b'⟩ := by
  have hc := considers_consider p t s i c
  generalize hs : p.consider t s i c = s' at hc
  cases hc with
  | rejected | duplicate | dropped =>
      rw [← hs]
      exact ⟨b, .pass (by rw [hs]; rfl)⟩
  | queued =>
      rw [← hs]
      exact ⟨_, .queue (by rw [hs]; exact frontier_enqueue _ _)⟩

theorem exists_reaches_close (p : Prover) (base : Nat) (a : Cancellation) (n k : Nat) (t : Trace)
    (l : List (Nat × Candidate)) (s : SearchState) (b : Ledger) :
    ∃ b', Reaches p base a ⟨.body n t k l, s, b⟩
      ⟨.head n, expanded (t.steps.length - base) k (p.considerAll t l s), b'⟩ := by
  induction l generalizing s b with
  | nil => exact ⟨b, .single .close⟩
  | cons x l ih =>
      obtain ⟨b₁, h₁⟩ := exists_moves_consider p base a n k t x.1 x.2 l s b
      obtain ⟨b₂, h₂⟩ := ih (p.consider t s x.1 x.2) b₁
      exact ⟨b₂, .head h₁ h₂⟩

theorem exists_reaches_explore (ha : s.isCalledOff a = false)
    (hp : s.frontier.pop? = some (t, f)) (ht : t.isFinished = false) (n : Nat) (b : Ledger) :
    ∃ b', Reaches p base a ⟨.head (n + 1), s, b⟩
      ⟨.head n, p.explore base t { s with frontier := f }, b'⟩ := by
  rw [explore_eq]
  by_cases hd : p.config.maxDepth ≤ t.steps.length - base
  · rw [if_pos hd]
    exact ⟨_, .single (.cut ha hp ht hd)⟩
  · rw [if_neg hd]
    obtain ⟨b', h⟩ := exists_reaches_close p base a n s.ranked t (t.current.candidates p.rules)
      (taken base t f s) (b.pop t)
    exact ⟨b', .head (.take ha hp ht (Nat.lt_of_not_le hd)) h⟩

theorem over_or_takes (p : Prover) (base : Nat) (a : Cancellation) (n : Nat) (s : SearchState)
    (b : Ledger) :
    (∃ r s' b', Moves p base a ⟨.head n, s, b⟩ ⟨.over r, s', b'⟩) ∨
      ∃ m t f, n = m + 1 ∧ s.isCalledOff a = false ∧ s.frontier.pop? = some (t, f) ∧
        t.isFinished = false := by
  cases ha : s.isCalledOff a with
  | true => exact .inl ⟨_, _, _, .abort ha⟩
  | false =>
      cases hp : s.frontier.pop? with
      | none => exact .inl ⟨_, _, _, .exhaust ha hp⟩
      | some x =>
          obtain ⟨t, f⟩ := x
          cases ht : t.isFinished with
          | true => exact .inl ⟨_, _, _, .prove ha hp ht⟩
          | false =>
              cases n with
              | zero => exact .inl ⟨_, _, _, .stop ha hp ht⟩
              | succ n => exact .inr ⟨n, t, f, rfl, rfl, rfl, ht⟩

theorem exists_reaches_over (p : Prover) (base : Nat) (a : Cancellation) (n : Nat) (s : SearchState)
    (b : Ledger) : ∃ r s' b', Reaches p base a ⟨.head n, s, b⟩ ⟨.over r, s', b'⟩ := by
  induction n generalizing s b with
  | zero =>
      rcases over_or_takes p base a 0 s b with ⟨r, s', b', h⟩ | ⟨m, t, f, hm, _⟩
      · exact ⟨r, s', b', .single h⟩
      · cases hm
  | succ n ih =>
      rcases over_or_takes p base a (n + 1) s b with ⟨r, s', b', h⟩ | ⟨m, t, f, hm, ha, hp, ht⟩
      · exact ⟨r, s', b', .single h⟩
      · obtain ⟨b₁, h₁⟩ := exists_reaches_explore ha hp ht n b
        obtain ⟨r, s', b', h₂⟩ := ih _ b₁
        exact ⟨r, s', b', h₁.trans h₂⟩

theorem reaches_over_iff {seed : Trace} :
    (∃ s b, Reaches p seed.steps.length a (p.opening seed) ⟨.over r, s, b⟩) ↔
      r = p.search seed a := by
  have hresult : p.result seed.steps.length a (p.opening seed) = p.search seed a := rfl
  constructor
  · rintro ⟨s, b, h⟩
    exact (result_of_reaches h).trans hresult
  · rintro rfl
    obtain ⟨r, s, b, h⟩ := exists_reaches_over p seed.steps.length a p.config.maxStates
      (p.start seed) ⟨[seed], []⟩
    have hr : r = p.search seed a := (result_of_reaches h).trans hresult
    exact ⟨s, b, hr ▸ h⟩

end SpiderDiagrams.Prover
