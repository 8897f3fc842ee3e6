import Mathlib.Data.Set.Card
import SpiderDiagrams.Proofs.Reachability
import SpiderDiagrams.Proofs.Search.Continuation
import SpiderDiagrams.Proofs.Search.Counters
import SpiderDiagrams.Proofs.Search.Waiting

/-!
Search as a decision procedure. All goals that a search has visited were explored or wait, and no
trace meets the same goals twice; so where only finitely many goals can be derived, bounds that
leave room for as many are never reached, and the answer of the search is definite.
-/

namespace SpiderDiagrams.Prover

variable {p : Prover} {seed t : Trace} {s s' : SearchState} {g h : Goals} {S : Set Goals}

theorem length_le_ncard {l : List Goals} (hS : S.Finite) (hl : l.Nodup) (hm : ∀ g ∈ l, g ∈ S) :
    l.length ≤ S.ncard := by
  rw [← List.toFinset_card_of_nodup hl, ← Set.ncard_coe_finset]
  apply Set.ncard_le_ncard _ hS
  intro g hg
  exact hm g (List.mem_toFinset.1 hg)

theorem size_le_ncard {v : Std.HashSet Goals} (hS : S.Finite) (hm : ∀ g ∈ v, g ∈ S) :
    v.size ≤ S.ncard := by
  rw [← Std.HashSet.length_toList]
  refine length_le_ncard hS ?_ fun g hg => hm g (Std.HashSet.mem_toList.1 hg)
  exact Std.HashSet.distinct_toList.imp fun he => ne_of_beq_false he

/-- Bounds that leave room for all goals that can be derived. -/
structure Ample (p : Prover) (g : Goals) (S : Set Goals) : Prop where
  finite : S.Finite
  derives : ∀ h, Goals.Derives p.rules g h → h ∈ S
  structural : p.config.duplicates = .structural
  depth : S.ncard ≤ p.config.maxDepth
  states : S.ncard ≤ p.config.maxStates
  frontier : S.ncard ≤ p.config.maxFrontier

theorem Ample.size_le (hp : p.Ample g S) {v : Std.HashSet Goals}
    (hv : ∀ k ∈ v, Goals.Derives p.rules g k) : v.size ≤ S.ncard :=
  size_le_ncard hp.finite fun k hk => hp.derives k (hv k hk)

theorem Ample.size_lt (hp : p.Ample g S) {v : Std.HashSet Goals}
    (hv : ∀ k ∈ v, Goals.Derives p.rules g k) (hd : Goals.Derives p.rules g h) (hh : h ∉ v) :
    v.size < S.ncard := by
  have hle := hp.size_le (v := v.insert h) (by
    intro k hk
    rcases Std.HashSet.mem_insert.1 hk with hk | hk
    · exact eq_of_beq hk ▸ hd
    · exact hv k hk)
  rw [Std.HashSet.size_insert, if_neg hh] at hle
  exact hle

theorem Continues.nodup (hp : p.config.duplicates = .structural) (hseed : seed.steps = [])
    (h : p.Continues seed t) : t.states.Nodup := by
  induction h with
  | seed => simp [Trace.states, hseed]
  | @push t rule a g ht hr ha hk ih =>
      rw [Trace.states_push]
      refine List.nodup_append.2 ⟨ih, List.nodup_singleton g, ?_⟩
      intro h hh k hg he
      rw [List.mem_singleton] at hg
      apply hk h hh
      rw [key_eq_self hp, key_eq_self hp, he, hg]

/-- No bound has been reached, and all that has been visited waits or was explored. -/
structure Accounted (p : Prover) (seed : Trace) (s : SearchState) : Prop where
  bound : s.boundReached = false
  derives : ∀ k ∈ s.visited, Goals.Derives p.rules seed.current k
  size : s.visited.size = s.frontier.size + s.statesExplored

theorem accounted_start (hp : p.config.duplicates = .structural) (hseed : seed.steps = []) :
    p.Accounted seed (p.start seed) := by
  have hstates : seed.states = [seed.current] := by simp [Trace.states, Trace.current, hseed]
  refine ⟨?_, ?_, balanced_start p hseed⟩
  · simp [start]
  · intro k hk
    obtain ⟨g, hg, rfl⟩ := mem_visited_start.1 hk
    rw [hstates, List.mem_singleton] at hg
    rw [key_eq_self hp, hg]
    exact .refl

theorem accounted_considers (hp : p.Ample seed.current S) {i : Nat} {c : Candidate}
    (ht : Goals.Derives p.rules seed.current t.current)
    (hc : (i, c) ∈ t.current.candidates p.rules) (hs : p.Accounted seed s)
    (h : Considers p t i c s s') : p.Accounted seed s' := by
  have hbalanced := balanced_considers h hs.size
  cases h with
  | rejected | duplicate => exact ⟨hs.bound, hs.derives, hs.size⟩
  | dropped g ha hv hf =>
      rw [key_eq_self hp.structural] at hv
      have hlt := hp.size_lt hs.derives (ht.tail ⟨i, c, hc, ha⟩) hv
      have hsize := hs.size
      have hroom := hp.frontier
      omega
  | queued g ha hv hf =>
      rw [key_eq_self hp.structural] at hbalanced ⊢
      refine ⟨?_, ?_, hbalanced⟩
      · rw [boundReached_enqueue]
        exact hs.bound
      · intro k hk
        rw [visited_enqueue, Std.HashSet.mem_insert] at hk
        rcases hk with hk | hk
        · exact eq_of_beq hk ▸ ht.tail ⟨i, c, hc, ha⟩
        · exact hs.derives k hk

theorem Admitted.length_le (hp : p.Ample seed.current S) (hseed : seed.steps = [])
    (hs : p.Accounted seed s) (ht : p.Admitted seed s t) : t.steps.length + 1 ≤ S.ncard := by
  rw [← Trace.length_states]
  apply length_le_ncard hp.finite (ht.continues.nodup hp.structural hseed)
  intro g hg
  have hv := ht.visited g hg
  rw [key_eq_self hp.structural] at hv
  exact hp.derives g (hs.derives g hv)

theorem accounted_round (hp : p.Ample seed.current S) (hseed : seed.steps = [])
    (hs : p.Accounted seed s) (hsound : p.Sound seed s)
    (h : Round p seed.steps.length s s') : p.Accounted seed s' := by
  cases h with
  | cut t f hpop ht hd =>
      obtain ⟨r, hr⟩ := Frontier.toList_of_pop?_eq_some hpop
      have hlength : t.steps.length + 1 ≤ S.ncard :=
        (hsound (r, t) (hr ▸ List.mem_cons_self)).length_le hp hseed hs
      have hroom := hp.depth
      omega
  | expand t f hpop ht hd =>
      obtain ⟨r, hr⟩ := Frontier.toList_of_pop?_eq_some hpop
      have hadmitted := hsound (r, t) (hr ▸ List.mem_cons_self)
      have hv := hadmitted.visited _ (List.mem_of_getLast? t.getLast?_states)
      rw [key_eq_self hp.structural] at hv
      have htaken : p.Accounted seed (taken seed.steps.length t f s) :=
        ⟨hs.bound, hs.derives, balanced_taken seed.steps.length hpop hs.size⟩
      have hend := considerAll_induction (t.current.candidates p.rules)
        (fun i c u u' hc hu hstep => accounted_considers hp (hs.derives _ hv) hc hu hstep) htaken
      exact ⟨hend.bound, hend.derives, hend.size⟩

theorem boundReached_run (hp : p.Ample seed.current S) (hseed : seed.steps = [])
    (hs : p.Accounted seed s) (hsound : p.Sound seed s) (a : Cancellation) {n : Nat}
    (hn : S.ncard ≤ s.statesExplored + n) :
    (p.run seed.steps.length a n s).1.boundReached = false := by
  induction n generalizing s with
  | zero =>
      rcases run_cases p seed.steps.length a 0 s with ⟨ho, _⟩ | ⟨m, s', hm, _⟩
      · generalize (p.run seed.steps.length a 0 s).1 = r at ho
        cases ho with
        | aborted | exhausted | proved => exact hs.bound
        | cut t f hpop ht =>
            have hle := hp.size_le hs.derives
            rw [hs.size, Frontier.size_of_pop?_eq_some hpop] at hle
            omega
      · omega
  | succ n ih =>
      rcases run_cases p seed.steps.length a (n + 1) s with ⟨_, h | h⟩ | ⟨m, s', hm, hr, he⟩
      · omega
      · exact h.trans hs.bound
      · obtain rfl : n = m := by omega
        rw [he]
        apply ih (accounted_round hp hseed hs hsound hr) (sound_round hsound hr)
        rw [statesExplored_round hr]
        omega

theorem status_eq_exhausted_of_ne (p : Prover) (seed : Trace)
    (h : (p.search seed .never).status ≠ .proved) : (p.search seed .never).status = .exhausted := by
  obtain ⟨s, _, ho⟩ := search_ends p seed .never
  generalize p.search seed .never = r at h ho
  cases ho with
  | aborted ha => cases ha
  | exhausted | cut => rfl
  | proved => exact absurd rfl h

theorem not_derives_of_closed (hp : p.config.duplicates = .structural) (hseed : seed.steps = [])
    (hs : p.Closed seed s) (hf : s.frontier.toList = []) :
    ¬ Goals.Derives p.rules seed.current [] := by
  intro hd
  obtain ⟨n, hd⟩ := Goals.derives_iff_derivesIn.1 hd
  rcases expanded_or_waits hp hseed hs hd with ⟨hne, _⟩ | ⟨_, _, x, hx, _⟩
  · exact hne rfl
  · rw [hf] at hx
    cases hx

/-- Without the introduction of double negations search decides whether goals can be derived: there
is a number such that a search whose bounds are at least as large reaches none of them, and proves
the goals if some steps lead to the empty goals and is exhausted if none do. -/
theorem prove_decides (g : Goals) (hg : ∀ d ∈ g, d.Valid) :
    ∃ B, ∀ p : Prover, .doubleNegationIntroduction ∉ p.rules →
      p.config.duplicates = .structural → B ≤ p.config.maxDepth → B ≤ p.config.maxStates →
      B ≤ p.config.maxFrontier →
      (p.prove g).boundReached = false ∧
        ((p.prove g).status = .proved ↔ Goals.Derives p.rules g.dischargeTrivial []) ∧
        ((p.prove g).status = .exhausted ↔ ¬ Goals.Derives p.rules g.dischargeTrivial []) := by
  obtain ⟨S, hS, hderives⟩ := Goals.exists_finite_derives (g := g.dischargeTrivial)
    fun d hd => hg d (List.mem_filter.1 hd).1
  refine ⟨S.ncard, ?_⟩
  intro p hrules hp hdepth hstates hfrontier
  have hample : p.Ample g.dischargeTrivial S :=
    ⟨hS, hderives p.rules hrules, hp, hdepth, hstates, hfrontier⟩
  have hbound : (p.prove g).boundReached = false := by
    have hs : p.Accounted ⟨g.dischargeTrivial, [], ∅⟩ (p.start ⟨g.dischargeTrivial, [], ∅⟩) :=
      accounted_start hp rfl
    apply boundReached_run hample rfl hs (sound_start p _) .never
    exact Nat.le_trans hstates (Nat.le_add_left _ _)
  have hproved : (p.prove g).status = .proved → Goals.Derives p.rules g.dischargeTrivial [] := by
    intro h
    obtain ⟨t, ht⟩ := (status_eq_proved_iff p _ _).1 h
    obtain ⟨hend, n, _, hd⟩ := derives_of_proof ht
    rw [List.isEmpty_iff.1 hend] at hd
    exact Goals.derives_iff_derivesIn.2 ⟨n, hd⟩
  have hexhausted : (p.prove g).status = .exhausted →
      ¬ Goals.Derives p.rules g.dischargeTrivial [] := by
    intro h
    obtain ⟨s, hs, hf⟩ := exhausted_closed h hbound
    exact not_derives_of_closed hp rfl hs hf
  refine ⟨hbound, ⟨hproved, ?_⟩, hexhausted, ?_⟩
  · intro hd
    by_contra hne
    exact hexhausted (status_eq_exhausted_of_ne p _ hne) hd
  · intro hnot
    exact status_eq_exhausted_of_ne p _ fun h => hnot (hproved h)

theorem prove_decides_habitat :
    let p : Diagram := .primary
      ⟨.ofList [("s", .ofList [.ofLists ["A"] [], .ofLists [] ["A"]])], ∅⟩
    let d : Diagram := .binary .disjunction p (.negation p)
    let g : Goals := [.binary .implication d d]
    let rules : List Rule := [.commutativity, .splitSpiders, .trivialImplication]
    (∀ e ∈ g, e.Valid) ∧ Goals.Derives rules g.dischargeTrivial [] ∧ ∃ B,
      let r := (ofConfig { maxDepth := B, maxStates := B, maxFrontier := B } rules).prove g
      r.boundReached = false ∧ r.status = .proved := by
  intro p d g rules
  have hg : ∀ e ∈ g, e.Valid := by decide +kernel
  have hrules : .doubleNegationIntroduction ∉ rules := by decide
  have hd : Goals.Derives rules g.dischargeTrivial [] :=
    .single ⟨0, ⟨.trivialImplication, 0, .none⟩, by decide +kernel, by decide +kernel⟩
  obtain ⟨B, hB⟩ := prove_decides g hg
  obtain ⟨hbound, hproved, _⟩ :=
    hB (ofConfig { maxDepth := B, maxStates := B, maxFrontier := B } rules) hrules rfl
      (Nat.le_refl B) (Nat.le_refl B) (Nat.le_refl B)
  exact ⟨hg, hd, B, hbound, hproved.2 hd⟩

end SpiderDiagrams.Prover
