import SpiderDiagrams.Proofs.Search.Exhaustion
import SpiderDiagrams.Proofs.Trace

namespace SpiderDiagrams.Prover

variable {p : Prover} {seed t : Trace} {s s' : SearchState} {g : Goals} {x : Nat × Trace}

/-- A trace that is put in the frontier where another is expanded, with goals whose key is not among
those visited before. -/
structure Spawned (p : Prover) (t : Trace) (v : Std.HashSet Goals) (x : Nat × Trace) : Prop where
  rank : x.1 = p.rank x.2
  length : x.2.steps.length = t.steps.length + 1
  step : Goals.Step p.rules t.current x.2.current
  fresh : p.key x.2.current ∉ v

theorem spawned_considers {i : Nat} {c : Candidate} (hc : (i, c) ∈ t.current.candidates p.rules)
    (h : Considers p t i c s s') (hx : x ∈ s'.frontier.toList) :
    x ∈ s.frontier.toList ∨ Spawned p t s.visited x := by
  cases h with
  | rejected | duplicate | dropped => exact .inl hx
  | queued g ha hv hf =>
      rw [frontier_enqueue, Frontier.mem_toList_push] at hx
      rcases hx with rfl | hx
      · exact .inr ⟨rfl, rfl, ⟨i, c, hc, ha⟩, hv⟩
      · exact .inl hx

theorem spawned_considerAll
    (hx : x ∈ (p.considerAll t (t.current.candidates p.rules) s).frontier.toList) :
    x ∈ s.frontier.toList ∨ Spawned p t s.visited x := by
  have hend := considerAll_induction (p := p) (t := t) (s := s)
    (P := fun u => Grows p s u ∧ ∀ x ∈ u.frontier.toList, x ∈ s.frontier.toList ∨ Spawned p t s.visited x)
    (t.current.candidates p.rules) (by
      rintro i c u u' hc ⟨hg, hu⟩ hstep
      refine ⟨hg.trans (grows_considers hstep), ?_⟩
      intro x hx
      rcases spawned_considers hc hstep hx with hx | hx
      · exact hu x hx
      · exact .inr ⟨hx.rank, hx.length, hx.step, fun hv => hx.fresh (hg.visited _ hv)⟩)
    ⟨.refl p s, fun _ hx => .inl hx⟩
  exact hend.2 x hx

/-- What waits after a round waited before it, or was led to from the trace that was taken. -/
theorem spawned_round {base : Nat} (h : Round p base s s') :
    ∃ r t f, s.frontier.toList = (r, t) :: f ∧ t.isFinished = false ∧
      ∀ x ∈ s'.frontier.toList, x ∈ f ∨ Spawned p t s.visited x := by
  cases h with
  | cut t f hp ht hd =>
      obtain ⟨r, hr⟩ := Frontier.toList_of_pop?_eq_some hp
      exact ⟨r, t, f.toList, hr, ht, fun x hx => .inl hx⟩
  | expand t f hp ht hd =>
      obtain ⟨r, hr⟩ := Frontier.toList_of_pop?_eq_some hp
      exact ⟨r, t, f.toList, hr, ht, fun x hx => spawned_considerAll hx⟩

def Derived (p : Prover) (seed : Trace) (s : SearchState) : Prop :=
  ∀ x ∈ s.frontier.toList, ∃ n, x.2.steps.length = seed.steps.length + n ∧
    Goals.DerivesIn p.rules seed.current n x.2.current

theorem derived_start (p : Prover) (seed : Trace) : p.Derived seed (p.start seed) := by
  intro x hx
  rw [toList_frontier_start, List.mem_singleton] at hx
  subst hx
  exact ⟨0, rfl, .refl⟩

theorem derived_round {base : Nat} (hs : p.Derived seed s) (h : Round p base s s') :
    p.Derived seed s' := by
  obtain ⟨r, t, f, hf, _, hx⟩ := spawned_round h
  intro x hx'
  rcases hx x hx' with hx | hx
  · exact hs x (hf ▸ List.mem_cons_of_mem _ hx)
  · obtain ⟨n, hn, hd⟩ := hs (r, t) (hf ▸ List.mem_cons_self)
    refine ⟨n + 1, ?_, hd.tail hx.step⟩
    rw [hx.length, hn]
    rfl

theorem derives_of_proof {a : Cancellation} (h : (p.search seed a).proof = some t) :
    t.isFinished = true ∧ ∃ n, t.steps.length = seed.steps.length + n ∧
      Goals.DerivesIn p.rules seed.current n t.current := by
  obtain ⟨s, hs, ho⟩ := search_induction seed a (derived_start p seed) fun _ _ => derived_round
  generalize p.search seed a = r at h ho
  cases ho with
  | aborted | exhausted | cut => simp [SearchState.finish] at h
  | proved u f hp hu =>
      obtain rfl : u = t := by simpa [SearchState.finish] using h
      obtain ⟨r, hr⟩ := Frontier.toList_of_pop?_eq_some hp
      exact ⟨hu, hs (r, u) (hr ▸ List.mem_cons_self)⟩

def Expanded (p : Prover) (s : SearchState) (g : Goals) : Prop :=
  g ≠ [] ∧ ∀ h, Goals.Step p.rules g h → p.key h ∈ s.visited

/-- A trace waits for goals to which at most so many steps lead. -/
def WaitsWithin (p : Prover) (seed : Trace) (s : SearchState) (n : Nat) : Prop :=
  ∃ m ≤ n, ∃ x ∈ s.frontier.toList, Goals.DerivesIn p.rules seed.current m x.2.current

theorem expanded_or_waits_of_covered {n : Nat} (hd : Goals.DerivesIn p.rules seed.current n g)
    (hg : p.Covered s g) : p.Expanded s g ∨ p.WaitsWithin seed s n := by
  rcases hg with ⟨x, hx, rfl⟩ | hg
  · exact .inr ⟨n, Nat.le_refl n, x, hx, hd⟩
  · exact .inl hg

theorem expanded_or_waits (hp : p.config.duplicates = .structural) (hseed : seed.steps = [])
    (hs : p.Closed seed s) {n : Nat} (hd : Goals.DerivesIn p.rules seed.current n g) :
    p.Expanded s g ∨ p.WaitsWithin seed s n := by
  have hvisited : ∀ k ∈ s.visited, p.Covered s k := by
    intro k hk
    rcases hs.visited k hk with ⟨g, hg, rfl⟩ | ⟨g, hg, rfl⟩
    · have he : g = seed.current := by simpa [Trace.states, Trace.current, hseed] using hg
      rw [key_eq_self hp, he]
      exact hs.current
    · rwa [key_eq_self hp]
  induction hd with
  | refl => exact expanded_or_waits_of_covered .refl hs.current
  | @tail n g k hn hstep ih =>
      rcases ih with ⟨_, hsucc⟩ | ⟨m, hm, hx⟩
      · have hk := hsucc k hstep
        rw [key_eq_self hp] at hk
        exact expanded_or_waits_of_covered (hn.tail hstep) (hvisited k hk)
      · exact .inr ⟨m, Nat.le_succ_of_le hm, hx⟩

end SpiderDiagrams.Prover
