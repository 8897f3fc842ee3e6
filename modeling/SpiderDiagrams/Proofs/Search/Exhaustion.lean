import SpiderDiagrams.Proofs.Derivation
import SpiderDiagrams.Proofs.Search.Listed

namespace SpiderDiagrams.Prover

variable {p : Prover} {seed t : Trace} {s s' : SearchState} {g : Goals}

/-- Goals that wait, or that are unfinished and lead to visited goals only. -/
def Covered (p : Prover) (s : SearchState) (g : Goals) : Prop :=
  (∃ x ∈ s.frontier.toList, x.2.current = g) ∨
    (g ≠ [] ∧ ∀ h, Goals.Step p.rules g h → p.key h ∈ s.visited)

structure Closed (p : Prover) (seed : Trace) (s : SearchState) : Prop where
  current : p.Covered s seed.current
  visited : ∀ k ∈ s.visited,
    (∃ g ∈ seed.states, p.key g = k) ∨ ∃ g, p.Covered s g ∧ p.key g = k

/-- What candidates can change: traces and keys are only added, a key together with a trace. -/
structure Grows (p : Prover) (s s' : SearchState) : Prop where
  frontier : ∀ x ∈ s.frontier.toList, x ∈ s'.frontier.toList
  visited : ∀ k ∈ s.visited, k ∈ s'.visited
  bound : s'.boundReached = false → s.boundReached = false
  added : ∀ k ∈ s'.visited, k ∈ s.visited ∨ ∃ x ∈ s'.frontier.toList, p.key x.2.current = k

theorem Grows.refl (p : Prover) (s : SearchState) : Grows p s s :=
  ⟨fun _ h => h, fun _ h => h, fun h => h, fun _ h => .inl h⟩

theorem Grows.trans {u : SearchState} (h : Grows p s s') (h' : Grows p s' u) : Grows p s u where
  frontier x hx := h'.frontier x (h.frontier x hx)
  visited k hk := h'.visited k (h.visited k hk)
  bound hb := h.bound (h'.bound hb)
  added k hk := by
    rcases h'.added k hk with hk | hx
    · rcases h.added k hk with hk | ⟨x, hx, he⟩
      · exact .inl hk
      · exact .inr ⟨x, h'.frontier x hx, he⟩
    · exact .inr hx

theorem grows_considers {i : Nat} {c : Candidate} (h : Considers p t i c s s') : Grows p s s' := by
  cases h with
  | rejected | duplicate => exact ⟨fun _ h => h, fun _ h => h, fun h => h, fun _ h => .inl h⟩
  | dropped =>
      refine ⟨fun _ h => h, fun _ h => h, ?_, fun _ h => .inl h⟩
      intro hb
      cases hb
  | queued g ha hv hf =>
      refine ⟨?_, ?_, ?_, ?_⟩
      · intro x hx
        rw [frontier_enqueue]
        exact Frontier.mem_toList_push.2 (.inr hx)
      · intro k hk
        rw [visited_enqueue]
        exact Std.HashSet.mem_insert.2 (.inr hk)
      · intro hb
        rwa [boundReached_enqueue] at hb
      · intro k hk
        rw [visited_enqueue, Std.HashSet.mem_insert] at hk
        rcases hk with hk | hk
        · rw [frontier_enqueue]
          exact .inr ⟨_, Frontier.mem_toList_push.2 (.inl rfl), eq_of_beq hk⟩
        · exact .inl hk

theorem grows_considerAll (p : Prover) (t : Trace) (l : List (Nat × Candidate)) (s : SearchState) :
    Grows p s (p.considerAll t l s) :=
  considerAll_induction l (fun _ _ _ _ _ hs h => hs.trans (grows_considers h)) (.refl p s)

theorem key_mem_considers {i : Nat} {c : Candidate} (h : Considers p t i c s s')
    (hb : s'.boundReached = false) (ha : c.rule.apply (c.argument i) t.current = .ok g) :
    p.key g ∈ s'.visited := by
  cases h with
  | rejected e he => rw [ha] at he; cases he
  | duplicate g' ha' hv =>
      obtain rfl : g = g' := by rw [ha] at ha'; exact Except.ok.inj ha'
      exact hv
  | dropped => cases hb
  | queued g' ha' hv hf =>
      obtain rfl : g = g' := by rw [ha] at ha'; exact Except.ok.inj ha'
      rw [visited_enqueue]
      exact Std.HashSet.mem_insert_self

theorem key_mem_considerAll {l : List (Nat × Candidate)} {i : Nat} {c : Candidate}
    (hb : (p.considerAll t l s).boundReached = false) (hc : (i, c) ∈ l)
    (ha : c.rule.apply (c.argument i) t.current = .ok g) :
    p.key g ∈ (p.considerAll t l s).visited := by
  induction l generalizing s with
  | nil => simp at hc
  | cons x l ih =>
      have hg := grows_considerAll p t l (p.consider t s x.1 x.2)
      rcases List.mem_cons.1 hc with rfl | hc
      · exact hg.visited _ (key_mem_considers (considers_consider p t s i c) (hg.bound hb) ha)
      · exact ih hb hc

theorem closed_start (p : Prover) (seed : Trace) : Closed p seed (p.start seed) where
  current := .inl ⟨_, by rw [toList_frontier_start]; exact List.mem_singleton_self _, rfl⟩
  visited k hk := .inl (mem_visited_start.1 hk)

theorem boundReached_of_round {base : Nat} (h : Round p base s s')
    (hb : s'.boundReached = false) : s.boundReached = false := by
  cases h with
  | cut => cases hb
  | expand t f => exact (grows_considerAll p t _ (taken base t f s)).bound hb

theorem mem_visited_round {base : Nat} {k : Goals} (h : Round p base s s') (hk : k ∈ s.visited) :
    k ∈ s'.visited := by
  cases h with
  | cut => exact hk
  | expand t f => exact (grows_considerAll p t _ (taken base t f s)).visited k hk

/-- Goals stay covered: those of the trace that is taken wait no more, but have visited successors. -/
theorem covered_of_round {base : Nat} (h : Round p base s s') (hb : s'.boundReached = false)
    (hg : p.Covered s g) : p.Covered s' g := by
  cases h with
  | cut => cases hb
  | expand t f hp ht hd =>
      have hgrows := grows_considerAll p t (t.current.candidates p.rules) (taken base t f s)
      obtain ⟨r, hr⟩ := Frontier.toList_of_pop?_eq_some hp
      rcases hg with ⟨x, hx, rfl⟩ | ⟨hne, hsucc⟩
      · rw [hr] at hx
        rcases List.mem_cons.1 hx with rfl | hx
        · refine .inr ⟨?_, ?_⟩
          · intro he
            rw [Trace.isFinished, he] at ht
            cases ht
          · rintro h ⟨i, c, hc, ha⟩
            exact key_mem_considerAll hb hc ha
        · exact .inl ⟨x, hgrows.frontier x hx, rfl⟩
      · exact .inr ⟨hne, fun h hh => hgrows.visited _ (hsucc h hh)⟩

theorem visited_of_round {base : Nat} {k : Goals} (h : Round p base s s') (hk : k ∈ s'.visited) :
    k ∈ s.visited ∨ ∃ x ∈ s'.frontier.toList, p.key x.2.current = k := by
  cases h with
  | cut => exact .inl hk
  | expand t f => exact (grows_considerAll p t _ (taken base t f s)).added k hk

theorem closed_round {base : Nat} (hs : s.boundReached = false → Closed p seed s)
    (h : Round p base s s') (hb : s'.boundReached = false) : Closed p seed s' := by
  have hclosed := hs (boundReached_of_round h hb)
  refine ⟨covered_of_round h hb hclosed.current, ?_⟩
  intro k hk
  rcases visited_of_round h hk with hk | ⟨x, hx, he⟩
  · rcases hclosed.visited k hk with hseed | ⟨g, hg, he⟩
    · exact .inl hseed
    · exact .inr ⟨g, covered_of_round h hb hg, he⟩
  · exact .inr ⟨x.2.current, .inl ⟨x, hx, rfl⟩, he⟩

theorem exhausted_closed {a : Cancellation} (h : (p.search seed a).status = .exhausted)
    (hb : (p.search seed a).boundReached = false) :
    ∃ s, Closed p seed s ∧ s.frontier.toList = [] := by
  obtain ⟨s, hs, ho⟩ := search_induction (P := fun s => s.boundReached = false → Closed p seed s)
    seed a (fun _ => closed_start p seed) fun _ _ => closed_round
  generalize p.search seed a = r at h hb ho
  cases ho with
  | aborted | proved => cases h
  | exhausted hp => exact ⟨s, hs hb, Frontier.toList_of_pop?_eq_none hp⟩
  | cut => cases hb

theorem key_eq_self (hp : p.config.duplicates = .structural) (g : Goals) : p.key g = g := by
  rw [key, hp]

/-- If the search for a proof is exhausted and met no bound, no steps lead to the empty goals. -/
theorem not_derives_of_exhausted (p : Prover) (hp : p.config.duplicates = .structural) (g : Goals)
    (h : (p.prove g).status = .exhausted) (hb : (p.prove g).boundReached = false) :
    ¬ Goals.Derives p.rules g.dischargeTrivial [] := by
  obtain ⟨s, hs, hf⟩ := exhausted_closed h hb
  have hcov : ∀ k ∈ s.visited, p.Covered s k := by
    intro k hk
    rcases hs.visited k hk with ⟨g', hg', rfl⟩ | ⟨g', hg', rfl⟩
    · have he : g' = g.dischargeTrivial := by simpa [Trace.states] using hg'
      rw [key_eq_self hp, he]
      exact hs.current
    · rwa [key_eq_self hp]
  have hsucc : ∀ g, p.Covered s g → g ≠ [] ∧ ∀ h, Goals.Step p.rules g h → p.Covered s h := by
    rintro g (⟨x, hx, _⟩ | ⟨hne, hsucc⟩)
    · simp [hf] at hx
    · refine ⟨hne, fun h hh => hcov h ?_⟩
      have := hsucc h hh
      rwa [key_eq_self hp] at this
  intro hd
  have hend : p.Covered s [] := by
    generalize [] = e at hd
    induction hd with
    | refl => exact hs.current
    | tail _ hstep ih => exact (hsucc _ ih).2 _ hstep
  exact (hsucc [] hend).1 rfl

theorem not_derives_of_exhausted_disjunction :
    let p := ofConfig { kind := .bestFirst, strategy := "connective_count" }
      [.commutativity, .splitConjunction]
    let g : Goals := [.binary .disjunction .null (.negation .null)]
    ((p.prove g).status = .exhausted ∧ (p.prove g).boundReached = false) ∧
      ¬ Goals.Derives p.rules g.dischargeTrivial [] := by
  intro p g
  have h : (p.prove g).status = .exhausted := by
    rw [prove, search_eq_searchListed]
    rfl
  have hb : (p.prove g).boundReached = false := by
    rw [prove, search_eq_searchListed]
    rfl
  exact ⟨⟨h, hb⟩, not_derives_of_exhausted p rfl g h hb⟩

end SpiderDiagrams.Prover
