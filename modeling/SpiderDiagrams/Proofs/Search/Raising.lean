import SpiderDiagrams.Proofs.Search.Shortest

/-!
Raising the bounds of a breadth-first search that finds a proof. Up to the first trace at the lower
depth bound both searches are in the same state. From then on the one with the lower bound only
takes traces of that depth out of its frontier; the other takes the same ones and puts what it
expands behind them, so that they leave in the same order and the same proof is found.
-/

namespace SpiderDiagrams

namespace Frontier

variable {α : Type} {f : Frontier α} {l : List (Nat × α)} {rank : Nat} {a : α}

theorem prefix_push (hl : l <+: f.toList) (hr : ∀ x ∈ l, x.1 ≤ rank) :
    l <+: (f.push rank a).toList := by
  obtain ⟨m, hm⟩ := hl
  have hbefore : l.filter (·.1 ≤ rank) = l :=
    List.filter_eq_self.2 fun x hx => by simpa using hr x hx
  rw [toList_push, ← hm, List.filter_append, hbefore, List.append_assoc]
  exact List.prefix_append _ _

theorem pop?_of_prefix {r : Nat} (h : (r, a) :: l <+: f.toList) :
    ∃ f', f.pop? = some (a, f') ∧ l <+: f'.toList := by
  obtain ⟨m, hm⟩ := h
  cases hp : f.pop? with
  | none =>
      rw [toList_of_pop?_eq_none hp] at hm
      cases hm
  | some x =>
      obtain ⟨b, f'⟩ := x
      obtain ⟨r', hr'⟩ := toList_of_pop?_eq_some hp
      rw [hr', List.cons_append, List.cons.injEq] at hm
      obtain ⟨he, hm⟩ := hm
      cases he
      exact ⟨f', rfl, m, hm⟩

end Frontier

namespace Prover

variable {p : Prover} {t : Trace} {base d d' : Nat} {s u : SearchState} {f : Frontier Trace}
  {l : List (Nat × Trace)}

def withBounds (p : Prover) (maxDepth maxStates : Nat) : Prover :=
  { p with config := { p.config with maxDepth, maxStates } }

theorem explore_of_le (n : Nat) (h : d ≤ t.steps.length - base) :
    (p.withBounds d n).explore base t { s with frontier := f } =
      { taken base t f s with boundReached := true } :=
  (explore_eq (p.withBounds d n) base t f s).trans (if_pos h)

theorem explore_of_lt (n : Nat) (h : t.steps.length - base < d) :
    (p.withBounds d n).explore base t { s with frontier := f } =
      expanded (t.steps.length - base) s.ranked
        (p.considerAll t (t.current.candidates p.rules) (taken base t f s)) :=
  (explore_eq (p.withBounds d n) base t f s).trans (if_neg (Nat.not_le.2 h))

theorem prefix_considers (hk : p.config.kind = .breadthFirst) {i : Nat} {c : Candidate}
    (hl : ∀ x ∈ l, x.1 = x.2.cost ∧ x.2.steps.length ≤ t.steps.length + 1)
    (h : Considers p t i c s u) (hs : l <+: s.frontier.toList) : l <+: u.frontier.toList := by
  cases h with
  | rejected | duplicate | dropped => exact hs
  | queued g ha hv hf =>
      rw [frontier_enqueue, rank_of_breadthFirst hk]
      apply Frontier.prefix_push hs
      intro x hx
      rw [(hl x hx).1]
      exact saturate_mono (hl x hx).2

theorem prefix_explore (hk : p.config.kind = .breadthFirst)
    (hl : ∀ x ∈ l, x.1 = x.2.cost ∧ x.2.steps.length ≤ t.steps.length + 1) (hf : l <+: f.toList) :
    l <+: (p.explore base t { s with frontier := f }).frontier.toList := by
  rw [explore_eq]
  split
  · exact hf
  · exact considerAll_induction (P := fun v => l <+: v.frontier.toList) _
      (fun i c v v' _ hv hstep => prefix_considers hk hl hstep hv) hf

/-- A search with a lower depth bound beside one with a higher: they are in the same state, or all
traces that the first has left are at its bound and next in the second. -/
inductive Raised (base d : Nat) (s : SearchState) : SearchState → Prop
  | same {n : Nat} (hn : base ≤ n) (hl : Layered s.frontier.toList n)
      (hd : ∀ x ∈ s.frontier.toList, x.2.steps.length ≤ base + d) : Raised base d s s
  | ahead {u : SearchState} (he : u.statesExplored = s.statesExplored)
      (hp : s.frontier.toList <+: u.frontier.toList)
      (hl : ∀ x ∈ s.frontier.toList, x.1 = x.2.cost ∧ x.2.steps.length = base + d) :
      Raised base d s u

/-- A trace at the lower bound is left by the first search, whatever the second does with it. -/
theorem raised_cut (hk : p.config.kind = .breadthFirst) (n n' : Nat) (ht : t.isFinished = false)
    {f' : Frontier Trace} (hp : u.frontier.pop? = some (t, f'))
    (he : u.statesExplored = s.statesExplored) (hd : t.steps.length = base + d)
    (hf : f.toList <+: f'.toList)
    (hl : ∀ x ∈ f.toList, x.1 = x.2.cost ∧ x.2.steps.length = base + d) :
    Raised base d ((p.withBounds d n).explore base t { s with frontier := f })
      ((p.withBounds d' n').explore base t { u with frontier := f' }) := by
  rw [explore_of_le n (by omega)]
  refine .ahead ?_ ?_ hl
  · rw [statesExplored_round (round_explore hp ht), he]
    rfl
  · apply prefix_explore (p := p.withBounds d' n') hk ?_ hf
    intro x hx
    have hx := hl x hx
    exact ⟨hx.1, by omega⟩

theorem raised_explore (hk : p.config.kind = .breadthFirst) (hd : d ≤ d') (n n' : Nat)
    (ht : t.isFinished = false) (h : Raised base d s u) (hp : s.frontier.pop? = some (t, f)) :
    ∃ f', u.frontier.pop? = some (t, f') ∧
      Raised base d ((p.withBounds d n).explore base t { s with frontier := f })
        ((p.withBounds d' n').explore base t { u with frontier := f' }) := by
  obtain ⟨r, hr⟩ := Frontier.toList_of_pop?_eq_some hp
  cases h with
  | @same m hm hl hupper =>
      rw [hr] at hl hupper
      have hf : Layered f.toList t.steps.length := hl.tail
      have hbase : base ≤ t.steps.length := Nat.le_trans hm (hl.lower _ List.mem_cons_self)
      have htd : t.steps.length ≤ base + d := hupper _ List.mem_cons_self
      refine ⟨f, hp, ?_⟩
      by_cases hlt : t.steps.length - base < d
      · -- both searches expand the trace, and to the same effect
        rw [explore_of_lt n hlt, explore_of_lt n' (Nat.lt_of_lt_of_le hlt hd)]
        have hlayered := considerAll_induction (P := fun v => Layered v.frontier.toList t.steps.length)
          (t.current.candidates p.rules) (fun i c v v' _ hv hstep => layered_considers hk hstep hv)
          (s := taken base t f s) hf
        refine .same hbase hlayered ?_
        intro x hx
        have hx := hlayered.upper x hx
        omega
      · apply raised_cut hk n n' ht hp rfl (by omega) (List.prefix_refl _)
        intro x hx
        have hlower := hf.lower x hx
        have hupper := hupper x (List.mem_cons_of_mem _ hx)
        exact ⟨hf.rank x hx, by omega⟩
  | ahead he hprefix hl =>
      rw [hr] at hprefix hl
      obtain ⟨f', hp', hf'⟩ := Frontier.pop?_of_prefix hprefix
      refine ⟨f', hp', raised_cut hk n n' ht hp' he (hl _ List.mem_cons_self).2 hf' ?_⟩
      exact fun x hx => hl x (List.mem_cons_of_mem _ hx)

theorem Raised.pop? (h : Raised base d s u) (hp : s.frontier.pop? = some (t, f)) :
    u.statesExplored = s.statesExplored ∧ ∃ f', u.frontier.pop? = some (t, f') := by
  cases h with
  | same => exact ⟨rfl, f, hp⟩
  | ahead he hprefix =>
      obtain ⟨r, hr⟩ := Frontier.toList_of_pop?_eq_some hp
      obtain ⟨f', hf', _⟩ := Frontier.pop?_of_prefix (hr ▸ hprefix)
      exact ⟨he, f', hf'⟩

theorem exists_pop?_of_proved {n : Nat} (h : (p.run base .never n s).1.status = .proved) :
    ∃ t f, s.frontier.pop? = some (t, f) ∧
      (t.isFinished = true ∨ t.isFinished = false ∧ ∃ m, n = m + 1) := by
  rcases run_cases p base .never n s with ⟨ho, _⟩ | ⟨m, s', hm, hr, _⟩
  · generalize (p.run base .never n s).1 = r at h ho
    cases ho with
    | aborted | exhausted | cut => cases h
    | proved t f hp ht => exact ⟨t, f, hp, .inl ht⟩
  · cases hr with
    | cut t f hp ht | expand t f hp ht => exact ⟨t, f, hp, .inr ⟨ht, m, hm⟩⟩

/-- The second search proves as the first does, after as many states. -/
structure SameProof (r r' : SearchResult) : Prop where
  status : r'.status = .proved
  proof : r'.proof = r.proof
  statesExplored : r'.statesExplored = r.statesExplored

theorem Raised.sameProof (hs : Raised base d s u) (k k' n m : Nat)
    (hp : s.frontier.pop? = some (t, f)) (ht : t.isFinished = true) :
    SameProof ((p.withBounds d k).run base .never n s).1
      ((p.withBounds d' k').run base .never m u).1 := by
  obtain ⟨he, f', hp'⟩ := hs.pop? hp
  rw [run_of_finished rfl hp ht, run_of_finished rfl hp' ht]
  exact ⟨rfl, rfl, he⟩

theorem run_raised (hk : p.config.kind = .breadthFirst) (hd : d ≤ d') (k k' : Nat) {n m : Nat}
    (hn : n ≤ m) (hs : Raised base d s u)
    (h : ((p.withBounds d k).run base .never n s).1.status = .proved) :
    SameProof ((p.withBounds d k).run base .never n s).1
      ((p.withBounds d' k').run base .never m u).1 := by
  induction n generalizing m s u with
  | zero =>
      obtain ⟨t, f, hp, ht | ⟨_, _, hm⟩⟩ := exists_pop?_of_proved h
      · exact hs.sameProof k k' 0 m hp ht
      · cases hm
  | succ n ih =>
      obtain ⟨t, f, hp, ht | ⟨ht, _⟩⟩ := exists_pop?_of_proved h
      · exact hs.sameProof k k' (n + 1) m hp ht
      · obtain ⟨m, rfl⟩ : ∃ m', m = m' + 1 := ⟨m - 1, by omega⟩
        obtain ⟨f', hp', hraised⟩ := raised_explore hk hd k k' ht hs hp
        rw [run_succ rfl hp ht] at h ⊢
        rw [run_succ rfl hp' ht]
        exact ih (by omega) hraised h

/-- A proof that a breadth-first search finds is found after as many states where the bounds on the
depth and on the number of states are raised. -/
theorem sameProof_of_raised_bounds (p : Prover) (hk : p.config.kind = .breadthFirst) (seed : Trace)
    {d d' n n' : Nat} (hd : d ≤ d') (hn : n ≤ n')
    (h : ((p.withBounds d n).search seed .never).status = .proved) :
    SameProof ((p.withBounds d n).search seed .never) ((p.withBounds d' n').search seed .never) := by
  have hstart : Raised seed.steps.length d (p.start seed) (p.start seed) := by
    refine .same (Nat.le_refl _) (layered_start hk seed) ?_
    intro x hx
    rw [toList_frontier_start, List.mem_singleton] at hx
    rw [hx]
    exact Nat.le_add_right _ _
  exact run_raised hk hd n n' hn hstart h

theorem sameProof_of_raised_bounds_expanded :
    let p := ofConfig { maxFrontier := 4 }
      [.doubleNegationIntroduction, .commutativity, .conjunctionElimination]
    let seed : Trace := { initial := [.binary .conjunction .null (.negation .null)] }
    ((p.withBounds 1 4).search seed .never).status = .proved ∧
      SameProof ((p.withBounds 1 4).search seed .never) ((p.withBounds 3 50).search seed .never) := by
  intro p seed
  have h : ((p.withBounds 1 4).search seed .never).status = .proved := by
    rw [search_eq_searchListed]
    decide +kernel
  exact ⟨h, sameProof_of_raised_bounds p rfl seed (by decide) (by decide) h⟩

end Prover

end SpiderDiagrams
