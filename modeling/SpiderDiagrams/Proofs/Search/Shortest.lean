import Mathlib.Order.Bounds.Defs
import SpiderDiagrams.Proofs.Search.Continuation
import SpiderDiagrams.Proofs.Search.Waiting

/-!
Breadth-first search. The waiting traces stand in the order of their lengths, which differ by one at
most, also where costs no longer tell them apart; and each is as short as any derivation of its
goals, since goals are visited first by a shortest way. So the first finished trace is a shortest
proof.
-/

namespace SpiderDiagrams.Prover

variable {p : Prover} {seed t : Trace} {s s' : SearchState} {l : List (Nat × Trace)} {n : Nat}

theorem rank_of_breadthFirst (hk : p.config.kind = .breadthFirst) (t : Trace) : p.rank t = t.cost := by
  simp [rank, estimate, hk]

theorem saturate_mono {m n : Nat} (h : m ≤ n) : saturate m ≤ saturate n := by
  simp only [saturate]
  omega

/-- The waiting traces of a search that has come to traces of the given length. -/
structure Layered (l : List (Nat × Trace)) (n : Nat) : Prop where
  rank : ∀ x ∈ l, x.1 = x.2.cost
  sorted : l.Pairwise fun x y => x.2.steps.length ≤ y.2.steps.length
  lower : ∀ x ∈ l, n ≤ x.2.steps.length
  upper : ∀ x ∈ l, x.2.steps.length ≤ n + 1

theorem Layered.tail {r : Nat} (h : Layered ((r, t) :: l) n) : Layered l t.steps.length := by
  obtain ⟨ht, hl⟩ := List.pairwise_cons.1 h.sorted
  have hn : n ≤ t.steps.length := h.lower _ List.mem_cons_self
  refine ⟨fun x hx => h.rank x (List.mem_cons_of_mem _ hx), hl, ht, ?_⟩
  intro x hx
  have hx := h.upper x (List.mem_cons_of_mem _ hx)
  omega

theorem Layered.append (h : Layered l n) (ht : t.steps.length = n + 1) :
    Layered (l ++ [(t.cost, t)]) n := by
  have hmem : ∀ x ∈ l ++ [(t.cost, t)], x ∈ l ∨ x = (t.cost, t) := by
    intro x hx
    rwa [List.mem_append, List.mem_singleton] at hx
  refine ⟨?_, ?_, ?_, ?_⟩
  · intro x hx
    rcases hmem x hx with hx | rfl
    · exact h.rank x hx
    · rfl
  · refine List.pairwise_append.2 ⟨h.sorted, List.pairwise_singleton _ _, ?_⟩
    intro x hx y hy
    rw [List.mem_singleton.1 hy, ht]
    exact h.upper x hx
  · intro x hx
    rcases hmem x hx with hx | rfl
    · exact h.lower x hx
    · exact ht ▸ Nat.le_succ n
  · intro x hx
    rcases hmem x hx with hx | rfl
    · exact h.upper x hx
    · exact Nat.le_of_eq ht

theorem Layered.toList_push {f : Frontier Trace} (h : Layered f.toList n)
    (ht : t.steps.length = n + 1) :
    (f.push t.cost t).toList = f.toList ++ [(t.cost, t)] := by
  have hcost : ∀ x ∈ f.toList, x.1 ≤ t.cost := by
    intro x hx
    rw [h.rank x hx]
    exact saturate_mono (ht ▸ h.upper x hx)
  have hbefore : f.toList.filter (·.1 ≤ t.cost) = f.toList :=
    List.filter_eq_self.2 fun x hx => by simpa using hcost x hx
  have hbehind : f.toList.filter (t.cost < ·.1) = [] :=
    List.filter_eq_nil_iff.2 fun x hx => by simpa using hcost x hx
  rw [Frontier.toList_push, hbefore, hbehind]

theorem layered_considers (hk : p.config.kind = .breadthFirst) {i : Nat} {c : Candidate}
    (h : Considers p t i c s s') (hs : Layered s.frontier.toList t.steps.length) :
    Layered s'.frontier.toList t.steps.length := by
  cases h with
  | rejected | duplicate | dropped => exact hs
  | queued g ha hv hf =>
      rw [frontier_enqueue, rank_of_breadthFirst hk]
      have hlist := hs.toList_push (t := t.push ⟨c.rule.name, c.argument i, .automatic⟩ g) rfl
      exact hlist ▸ hs.append rfl

theorem layered_start (hk : p.config.kind = .breadthFirst) (seed : Trace) :
    Layered (p.start seed).frontier.toList seed.steps.length := by
  rw [toList_frontier_start, rank_of_breadthFirst hk]
  refine ⟨?_, List.pairwise_singleton _ _, ?_, ?_⟩ <;> intro x hx <;> cases List.mem_singleton.1 hx
  · rfl
  · exact Nat.le_refl _
  · exact Nat.le_succ _

theorem layered_round {base : Nat} (hk : p.config.kind = .breadthFirst)
    (hs : Layered s.frontier.toList n) (h : Round p base s s') :
    ∃ m, Layered s'.frontier.toList m := by
  cases h with
  | cut t f hp ht hd =>
      obtain ⟨r, hr⟩ := Frontier.toList_of_pop?_eq_some hp
      exact ⟨_, (hr ▸ hs).tail⟩
  | expand t f hp ht hd =>
      obtain ⟨r, hr⟩ := Frontier.toList_of_pop?_eq_some hp
      have hf : Layered f.toList t.steps.length := (hr ▸ hs).tail
      exact ⟨_, considerAll_induction (P := fun u => Layered u.frontier.toList t.steps.length) _
        (fun i c u u' _ hu hstep => layered_considers hk hstep hu) hf⟩

/-- The invariant of a breadth-first search that has reached no bound. -/
structure Shortest (p : Prover) (seed : Trace) (s : SearchState) : Prop where
  closed : p.Closed seed s
  visited : p.key seed.current ∈ s.visited
  layered : ∃ n, Layered s.frontier.toList n
  shortest : ∀ x ∈ s.frontier.toList, ∀ n,
    Goals.DerivesIn p.rules seed.current n x.2.current → x.2.steps.length ≤ n

theorem shortest_start (hk : p.config.kind = .breadthFirst) (hseed : seed.steps = []) :
    p.Shortest seed (p.start seed) := by
  refine ⟨closed_start p seed, ?_, ⟨_, layered_start hk seed⟩, ?_⟩
  · exact mem_visited_start.2 ⟨_, List.mem_of_getLast? seed.getLast?_states, rfl⟩
  · intro x hx n _
    rw [toList_frontier_start, List.mem_singleton] at hx
    rw [hx, hseed]
    exact Nat.zero_le n

/-- Within as many steps as a derivation has that leaves the expanded goals, the next trace waits. -/
theorem Shortest.le_of_waitsWithin {r : Nat} (hs : p.Shortest seed s)
    (hf : s.frontier.toList = (r, t) :: l) (hw : p.WaitsWithin seed s n) : t.steps.length ≤ n := by
  obtain ⟨m, hm, x, hx, hd⟩ := hw
  obtain ⟨_, hl⟩ := hs.layered
  have hfirst : t.steps.length ≤ x.2.steps.length := by
    have hsorted := hl.sorted
    rw [hf] at hx hsorted
    rcases List.mem_cons.1 hx with rfl | hx
    · exact Nat.le_refl _
    · exact (List.pairwise_cons.1 hsorted).1 x hx
  have hx := hs.shortest x hx m hd
  omega

theorem shortest_round {base : Nat} (hp : p.config.duplicates = .structural)
    (hk : p.config.kind = .breadthFirst) (hseed : seed.steps = [])
    (hs : s.boundReached = false → p.Shortest seed s) (h : Round p base s s')
    (hb : s'.boundReached = false) : p.Shortest seed s' := by
  have hs : p.Shortest seed s := hs (boundReached_of_round h hb)
  obtain ⟨_, hl⟩ := hs.layered
  refine ⟨closed_round (fun _ => hs.closed) h hb, mem_visited_round h hs.visited,
    layered_round hk hl h, ?_⟩
  obtain ⟨r, t, f, hf, _, hnew⟩ := spawned_round h
  intro x hx n hd
  rcases hnew x hx with hx | hx
  · exact hs.shortest x (hf ▸ List.mem_cons_of_mem _ hx) n hd
  · -- the goals of a new trace were not visited, so a shorter derivation of them would have to
    -- pass a trace that waits before `t`
    have hfresh := hx.fresh
    rw [hx.length]
    generalize x.2.current = k at hd hfresh
    cases hd with
    | refl => exact absurd hs.visited hfresh
    | @tail n g _ hg hstep =>
        rcases expanded_or_waits hp hseed hs.closed hg with ⟨_, hsucc⟩ | hw
        · exact absurd (hsucc k hstep) hfresh
        · exact Nat.succ_le_succ (hs.le_of_waitsWithin hf hw)

theorem length_le_of_derivesIn (hp : p.config.duplicates = .structural)
    (hk : p.config.kind = .breadthFirst) (hseed : seed.steps = []) {a : Cancellation}
    (ht : (p.search seed a).proof = some t) (hb : (p.search seed a).boundReached = false)
    (hd : Goals.DerivesIn p.rules seed.current n []) : t.steps.length ≤ n := by
  obtain ⟨s, hs, ho⟩ := search_induction (P := fun s => s.boundReached = false → p.Shortest seed s)
    seed a (fun _ => shortest_start hk hseed) fun _ _ => shortest_round hp hk hseed
  generalize p.search seed a = r at ht hb ho
  cases ho with
  | aborted | exhausted | cut => simp [SearchState.finish] at ht
  | proved u f hpop hu =>
      obtain rfl : u = t := by simpa [SearchState.finish] using ht
      obtain ⟨r, hr⟩ := Frontier.toList_of_pop?_eq_some hpop
      rcases expanded_or_waits hp hseed (hs hb).closed hd with ⟨hne, _⟩ | hw
      · exact absurd rfl hne
      · exact (hs hb).le_of_waitsWithin hr hw

/-- If a breadth-first search finds a proof without reaching a bound, the proof is a derivation of
the empty goals, and none has fewer steps. -/
theorem prove_shortest (p : Prover) (hk : p.config.kind = .breadthFirst)
    (hp : p.config.duplicates = .structural) (g : Goals) (h : (p.prove g).status = .proved)
    (hb : (p.prove g).boundReached = false) :
    ∃ t, (p.prove g).proof = some t ∧
      IsLeast {n | Goals.DerivesIn p.rules g.dischargeTrivial n []} t.applications.length := by
  obtain ⟨t, ht⟩ := (status_eq_proved_iff p _ _).1 h
  obtain ⟨hend, n, hn, hd⟩ := derives_of_proof ht
  have hlength : t.applications.length = n := by
    rw [Trace.length_applications, hn]
    exact Nat.zero_add n
  refine ⟨t, ht, ?_, ?_⟩
  · rw [List.isEmpty_iff.1 hend] at hd
    exact hlength ▸ hd
  · intro m hm
    rw [Trace.length_applications]
    exact length_le_of_derivesIn hp hk rfl ht hb hm

theorem prove_shortest_twice :
    let p := ofConfig {} [.splitConjunction, .trivialImplication, .idempotency]
    let d : Diagram := .binary .implication (.negation .null) (.negation .null)
    let g : Goals := [.binary .conjunction d d]
    ((p.prove g).status = .proved ∧ (p.prove g).boundReached = false) ∧
      IsLeast {n | Goals.DerivesIn p.rules g.dischargeTrivial n []} 2 := by
  intro p d g
  have hsearch := search_eq_searchListed p ⟨g.dischargeTrivial, [], ∅⟩ .never
  have h : (p.prove g).status = .proved := by
    rw [prove, hsearch]
    decide +kernel
  have hb : (p.prove g).boundReached = false := by
    rw [prove, hsearch]
    decide +kernel
  have hlength : (p.prove g).proof.map (·.applications.length) = some 2 := by
    rw [prove, hsearch]
    decide +kernel
  obtain ⟨t, ht, hleast⟩ := prove_shortest p rfl rfl g h hb
  rw [ht] at hlength
  exact ⟨⟨h, hb⟩, Option.some.inj hlength ▸ hleast⟩

end SpiderDiagrams.Prover
