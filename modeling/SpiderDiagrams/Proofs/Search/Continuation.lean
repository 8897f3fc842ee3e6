import SpiderDiagrams.Proofs.Derivation
import SpiderDiagrams.Proofs.Search.Listed
import SpiderDiagrams.Proofs.Trace

namespace SpiderDiagrams.Prover

variable {p : Prover} {seed t : Trace} {s s' : SearchState}

/-- The traces that a seed grows into by rules of a prover, without meeting the same key twice. -/
inductive Continues (p : Prover) (seed : Trace) : Trace → Prop
  | seed : Continues p seed seed
  | push {t : Trace} {rule : Rule} {a : Argument} {g : Goals} (ht : Continues p seed t)
      (hr : rule ∈ p.rules) (ha : rule.apply a t.current = .ok g)
      (hk : ∀ h ∈ t.states, p.key g ≠ p.key h) :
      Continues p seed (t.push ⟨rule.name, a, .automatic⟩ g)

namespace Continues

theorem states_extend (h : p.Continues seed t) : seed.states <+: t.states := by
  induction h with
  | seed => exact List.prefix_refl _
  | push ht hr ha hk ih =>
      rw [Trace.states_push]
      exact ih.trans (List.prefix_append _ _)

theorem applications_extend (h : p.Continues seed t) : seed.applications <+: t.applications := by
  induction h with
  | seed => exact List.prefix_refl _
  | push ht hr ha hk ih =>
      rw [Trace.applications_push]
      exact ih.trans (List.prefix_append _ _)

theorem metadata_eq (h : p.Continues seed t) : t.metadata = seed.metadata := by
  induction h with
  | seed => rfl
  | push ht hr ha hk ih => exact ih

theorem added (h : p.Continues seed t) {i : Nat} {a : Application}
    (hi : seed.steps.length ≤ i) (ha : t.applications[i]? = some a) :
    a.kind = .automatic ∧ ∃ rule ∈ p.rules, rule.name = a.ruleName ∧
      ∃ g g', t.states[i]? = some g ∧ t.states[i + 1]? = some g' ∧
        rule.apply a.argument g = .ok g' := by
  induction h with
  | seed =>
      have hlt := Trace.lt_of_getElem?_applications ha
      omega
  | @push t rule b g ht hr hb hk ih =>
      have hle : i < t.steps.length + 1 := Trace.lt_of_getElem?_applications ha
      by_cases hlt : i < t.steps.length
      · rw [Trace.getElem?_applications_push hlt] at ha
        rw [Trace.getElem?_states_push (Nat.le_of_lt hlt), Trace.getElem?_states_push hlt]
        exact ih ha
      · obtain rfl : i = t.steps.length := by omega
        rw [Trace.getElem?_applications_push_last] at ha
        cases ha
        refine ⟨rfl, rule, hr, rfl, t.current, g, ?_, ?_, hb⟩
        · rw [Trace.getElem?_states_push (Nat.le_refl _)]
          exact t.getElem?_states_length
        · exact t.getElem?_states_push_last _ g

theorem fresh (h : p.Continues seed t) {i j : Nat} {g g' : Goals} (hi : seed.steps.length < i)
    (hj : j < i) (hg : t.states[i]? = some g) (hg' : t.states[j]? = some g') :
    p.key g ≠ p.key g' := by
  induction h with
  | seed =>
      have hle := Trace.le_of_getElem?_states hg
      omega
  | @push t rule b k ht hr hb hk ih =>
      have hle : i ≤ t.steps.length + 1 := Trace.le_of_getElem?_states hg
      rw [Trace.getElem?_states_push (by omega)] at hg'
      by_cases hlt : i ≤ t.steps.length
      · rw [Trace.getElem?_states_push hlt] at hg
        exact ih hg hg'
      · obtain rfl : i = t.steps.length + 1 := by omega
        rw [Trace.getElem?_states_push_last] at hg
        cases hg
        exact hk g' (List.mem_of_getElem? hg')

theorem verify (h : p.Continues seed t) (hs : seed.verify Rule.all = .ok ()) :
    t.verify Rule.all = .ok () := by
  induction h with
  | seed => exact hs
  | @push t rule a g ht hr ha hk ih => exact Trace.verify_push (Rule.ofName?_name rule) ha ih

end Continues

/-- A trace that waits in a search: it continues the seed within the depth bound, and all its goals
have been visited. -/
structure Admitted (p : Prover) (seed : Trace) (s : SearchState) (t : Trace) : Prop where
  continues : p.Continues seed t
  visited : ∀ g ∈ t.states, p.key g ∈ s.visited
  depth : t.steps.length ≤ seed.steps.length + p.config.maxDepth

def Sound (p : Prover) (seed : Trace) (s : SearchState) : Prop :=
  ∀ x ∈ s.frontier.toList, p.Admitted seed s x.2

theorem Admitted.mono (h : p.Admitted seed s t) (hv : ∀ k ∈ s.visited, k ∈ s'.visited) :
    p.Admitted seed s' t :=
  ⟨h.continues, fun g hg => hv _ (h.visited g hg), h.depth⟩

theorem sound_start (p : Prover) (seed : Trace) : p.Sound seed (p.start seed) := by
  intro x hx
  rw [toList_frontier_start, List.mem_singleton] at hx
  subst hx
  refine ⟨.seed, ?_, Nat.le_add_right _ _⟩
  intro g hg
  rw [mem_visited_start]
  exact ⟨g, hg, rfl⟩

theorem sound_considers {i : Nat} {c : Candidate} (hr : c.rule ∈ p.rules)
    (hd : t.steps.length < seed.steps.length + p.config.maxDepth) (h : Considers p t i c s s')
    (hs : p.Sound seed s ∧ p.Admitted seed s t) : p.Sound seed s' ∧ p.Admitted seed s' t := by
  obtain ⟨hs, ht⟩ := hs
  cases h with
  | rejected | duplicate | dropped =>
      exact ⟨fun x hx => (hs x hx).mono fun _ hk => hk, ht.mono fun _ hk => hk⟩
  | queued g ha hv hf =>
      have hm : ∀ k ∈ s.visited, k ∈ (p.enqueue (t.push ⟨c.rule.name, c.argument i, .automatic⟩ g)
          { generated s with visited := s.visited.insert (p.key g) }).visited := by
        intro k hk
        rw [visited_enqueue]
        exact Std.HashSet.mem_insert.2 (.inr hk)
      refine ⟨?_, ht.mono hm⟩
      intro x hx
      rw [frontier_enqueue, Frontier.mem_toList_push] at hx
      rcases hx with rfl | hx
      · -- the goals of the new trace are those of `t`, all visited, and `g`, which was not
        refine ⟨ht.continues.push hr ha ?_, ?_, ?_⟩
        · intro h hh he
          exact hv (he ▸ ht.visited h hh)
        · intro h hh
          rw [Trace.states_push, List.mem_append, List.mem_singleton] at hh
          rcases hh with hh | rfl
          · exact hm _ (ht.visited h hh)
          · rw [visited_enqueue]
            exact Std.HashSet.mem_insert.2 (.inl (by simp))
        · exact hd
      · exact (hs x hx).mono hm

theorem sound_round (hs : p.Sound seed s) (h : Round p seed.steps.length s s') :
    p.Sound seed s' := by
  cases h with
  | cut t f hp ht hd =>
      obtain ⟨r, hr⟩ := Frontier.toList_of_pop?_eq_some hp
      intro x hx
      have hx' : x ∈ s.frontier.toList := hr ▸ List.mem_cons_of_mem _ hx
      exact (hs x hx').mono fun _ hk => hk
  | expand t f hp ht hd =>
      obtain ⟨r, hr⟩ := Frontier.toList_of_pop?_eq_some hp
      have hlt : t.steps.length < seed.steps.length + p.config.maxDepth := by omega
      have hall : ∀ x ∈ s.frontier.toList, p.Admitted seed (taken seed.steps.length t f s) x.2 :=
        fun x hx => (hs x hx).mono fun _ hk => hk
      have htaken : p.Sound seed (taken seed.steps.length t f s) ∧
          p.Admitted seed (taken seed.steps.length t f s) t := by
        refine ⟨fun x hx => hall x ?_, hall (r, t) ?_⟩
        · exact hr ▸ List.mem_cons_of_mem _ hx
        · exact hr ▸ List.mem_cons_self
      have hend := considerAll_induction (p := p) (t := t) (t.current.candidates p.rules)
        (fun i c u u' hc hu hu' => sound_considers
          (by obtain ⟨d, _, hrule, _⟩ := Goals.mem_candidates.1 hc; exact hrule) hlt hu' hu) htaken
      intro x hx
      exact (hend.1 x hx).mono fun _ hk => hk

theorem admitted_of_search {a : Cancellation} (h : (p.search seed a).proof = some t) :
    t.isFinished = true ∧ ∃ s, p.Admitted seed s t := by
  obtain ⟨s, hs, ho⟩ := search_induction seed a (sound_start p seed) fun _ _ => sound_round
  generalize p.search seed a = r at h ho
  cases ho with
  | aborted | exhausted | cut => simp [SearchState.finish] at h
  | proved u f hp hu =>
      obtain rfl : u = t := by simpa [SearchState.finish] using h
      obtain ⟨r, hr⟩ := Frontier.toList_of_pop?_eq_some hp
      exact ⟨hu, s, hs (r, u) (hr ▸ List.mem_cons_self)⟩

theorem status_eq_proved_iff (p : Prover) (seed : Trace) (a : Cancellation) :
    (p.search seed a).status = .proved ↔ ∃ t, (p.search seed a).proof = some t := by
  obtain ⟨s, _, ho⟩ := search_ends p seed a
  generalize p.search seed a = r at ho
  cases ho <;> simp [SearchState.finish]

theorem proof_of_isFinished (p : Prover) (h : seed.isFinished = true) :
    (p.search seed .never).proof = some seed := by
  have hpop : ∀ u f, (p.start seed).frontier.pop? = some (u, f) → u = seed := by
    intro u f hp
    obtain ⟨r, hr⟩ := Frontier.toList_of_pop?_eq_some hp
    rw [toList_frontier_start] at hr
    exact (Prod.mk.inj (List.cons.inj hr).1).2.symm
  obtain ⟨s, hs, ho⟩ := search_ends p seed .never
  obtain rfl : p.start seed = s := by
    rcases Relation.ReflTransGen.cases_head hs with he | ⟨s', hr, _⟩
    · exact he
    · cases hr with
      | cut u f hp hu | expand u f hp hu =>
          rw [hpop u f hp, h] at hu
          cases hu
  generalize p.search seed .never = r at ho
  cases ho with
  | aborted ha => cases ha
  | exhausted hp =>
      have := Frontier.toList_of_pop?_eq_none hp
      simp [toList_frontier_start] at this
  | proved u f hp hu => rw [hpop u f hp]; rfl
  | cut u f hp hu =>
      rw [hpop u f hp, h] at hu
      cases hu

/-- A finished trace that a seed grows into, as its goals and applications are recorded. -/
structure Finishes (p : Prover) (seed t : Trace) : Prop where
  states : seed.states <+: t.states
  applications : seed.applications <+: t.applications
  metadata : t.metadata = seed.metadata
  finished : t.states.getLast? = some []
  depth : t.applications.length ≤ seed.applications.length + p.config.maxDepth
  added : ∀ i a, seed.applications.length ≤ i → t.applications[i]? = some a →
    a.kind = .automatic ∧ ∃ rule ∈ p.rules, rule.name = a.ruleName ∧
      ∃ g h, t.states[i]? = some g ∧ t.states[i + 1]? = some h ∧ rule.apply a.argument g = .ok h
  verified : seed.verify Rule.all = .ok () → t.verify Rule.all = .ok ()
  fresh : ∀ i j g h, seed.states.length ≤ i → j < i → t.states[i]? = some g →
    t.states[j]? = some h → p.key g ≠ p.key h

theorem Admitted.finishes (h : p.Admitted seed s t) (ht : t.isFinished = true) :
    p.Finishes seed t where
  states := h.continues.states_extend
  applications := h.continues.applications_extend
  metadata := h.continues.metadata_eq
  finished := by
    rw [Trace.getLast?_states, List.isEmpty_iff.1 ht]
  depth := by simpa only [Trace.length_applications] using h.depth
  added i a hi ha := h.continues.added (by simpa only [Trace.length_applications] using hi) ha
  verified := h.continues.verify
  fresh i j g k hi hj hg hk :=
    h.continues.fresh (by rw [Trace.length_states] at hi; omega) hj hg hk

/-- A search proves exactly by a finished continuation of its seed, and extending a trace gives
such a continuation or the trace itself. -/
theorem search_finishes (p : Prover) (seed : Trace) (a : Cancellation) :
    ((p.search seed a).status = .proved →
      ∃ t, (p.search seed a).proof = some t ∧ p.Finishes seed t) ∧
    ((p.search seed a).status ≠ .proved → (p.search seed a).proof = none) ∧
    (p.extend seed = seed ∨ p.Finishes seed (p.extend seed)) ∧
    (seed.isFinished = true → p.extend seed = seed) := by
  refine ⟨?_, ?_, ?_, ?_⟩
  · intro h
    obtain ⟨t, ht⟩ := (status_eq_proved_iff p seed a).1 h
    obtain ⟨hf, s, hs⟩ := admitted_of_search ht
    exact ⟨t, ht, hs.finishes hf⟩
  · intro h
    cases hp : (p.search seed a).proof with
    | none => rfl
    | some t => exact absurd ((status_eq_proved_iff p seed a).2 ⟨t, hp⟩) h
  · rw [extend]
    cases hp : (p.search seed .never).proof with
    | none => exact .inl rfl
    | some t =>
        obtain ⟨hf, s, hs⟩ := admitted_of_search hp
        exact .inr (hs.finishes hf)
  · intro h
    rw [extend, proof_of_isFinished p h]
    rfl

def begun : Trace :=
  let d := Diagram.negation (.negation .null)
  { initial := [.binary .conjunction d d]
    steps := [⟨⟨Rule.splitConjunction.name, .single ⟨0, 0⟩, .interactive⟩, [d, d]⟩]
    metadata := .ofList [("author", "hand")] }

theorem search_finishes_begun :
    let p := ofConfig { kind := .bestFirst, strategy := "connective_count" } [.doubleNegationElimination]
    (p.search begun .never).status = .proved ∧
      ∃ t, (p.search begun .never).proof = some t ∧ p.Finishes begun t := by
  intro p
  have h : (p.search begun .never).status = .proved := by
    rw [search_eq_searchListed]
    rfl
  exact ⟨h, (search_finishes p begun .never).1 h⟩

end SpiderDiagrams.Prover
