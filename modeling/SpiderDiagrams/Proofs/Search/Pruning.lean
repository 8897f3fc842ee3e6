import Mathlib.Data.List.Perm.Subperm
import SpiderDiagrams.Proofs.Search.Counters
import SpiderDiagrams.Proofs.Search.Decision

namespace SpiderDiagrams.Prover

variable {p : Prover} {seed : Trace} {s s' : SearchState} {h : Goals}

/-- Each visited key is that of goals to which steps lead. -/
structure Traced (p : Prover) (seed : Trace) (s : SearchState) : Prop where
  derived : p.Derived seed s
  visited : ∀ k ∈ s.visited, ∃ h, Goals.Derives p.rules seed.current h ∧ p.key h = k
  balanced : Balanced s

theorem traced_start (hseed : seed.steps = []) : p.Traced seed (p.start seed) := by
  refine ⟨derived_start p seed, ?_, balanced_start p hseed⟩
  intro k hk
  obtain ⟨g, hg, rfl⟩ := mem_visited_start.1 hk
  obtain rfl : g = seed.current := by simpa [Trace.states, Trace.current, hseed] using hg
  exact ⟨seed.current, .refl, rfl⟩

theorem traced_round {base : Nat} (hs : p.Traced seed s) (h : Round p base s s') :
    p.Traced seed s' := by
  have hderived := derived_round hs.derived h
  refine ⟨hderived, ?_, balanced_round hs.balanced h⟩
  intro k hk
  rcases visited_of_round h hk with hk | ⟨x, hx, rfl⟩
  · exact hs.visited k hk
  · obtain ⟨n, _, hd⟩ := hderived x hx
    exact ⟨x.2.current, Goals.derives_iff_derivesIn.2 ⟨n, hd⟩, rfl⟩

theorem mem_visited_of_derives (hp : p.config.duplicates = .structural) (hseed : seed.steps = [])
    (hs : p.Closed seed s) (hf : s.frontier.toList = []) (hc : p.key seed.current ∈ s.visited)
    (hd : Goals.Derives p.rules seed.current h) : h ∈ s.visited := by
  rcases Relation.ReflTransGen.cases_tail hd with he | ⟨g, hg, hstep⟩
  · rwa [key_eq_self hp, ← he] at hc
  · obtain ⟨n, hn⟩ := Goals.derives_iff_derivesIn.1 hg
    rcases expanded_or_waits hp hseed hs hn with ⟨_, hsucc⟩ | ⟨_, _, x, hx, _⟩
    · have hh := hsucc h hstep
      rwa [key_eq_self hp] at hh
    · rw [hf] at hx
      cases hx

theorem size_le_of_keys {v w : Std.HashSet Goals} (f : Goals → Goals)
    (hw : ∀ k ∈ w, ∃ g ∈ v, f g = k) : w.size ≤ v.size := by
  have hnodup : w.toList.Nodup := Std.HashSet.distinct_toList.imp fun he => ne_of_beq_false he
  have hsub : w.toList ⊆ v.toList.map f := by
    intro k hk
    obtain ⟨g, hg, he⟩ := hw k (Std.HashSet.mem_toList.1 hk)
    exact List.mem_map.2 ⟨g, Std.HashSet.mem_toList.2 hg, he⟩
  have hle := (List.subperm_of_subset hnodup hsub).length_le
  rwa [List.length_map, Std.HashSet.length_toList, Std.HashSet.length_toList] at hle

theorem explored_of_exhausted (hp : p.config.duplicates = .structural) (seed : Trace)
    (hseed : seed.steps = []) {a : Cancellation} (h : (p.search seed a).status = .exhausted)
    (hb : (p.search seed a).boundReached = false) :
    ∃ v : Std.HashSet Goals, v.size = (p.search seed a).statesExplored ∧
      ∀ g, Goals.Derives p.rules seed.current g → g ∈ v := by
  obtain ⟨s, ⟨hclosed, hcurrent, hbalanced⟩, ho⟩ := search_induction
    (P := fun s => (s.boundReached = false → p.Closed seed s) ∧ p.key seed.current ∈ s.visited ∧
      Balanced s) seed a
    ⟨fun _ => closed_start p seed,
      mem_visited_start.2 ⟨_, List.mem_of_getLast? seed.getLast?_states, rfl⟩,
      balanced_start p hseed⟩
    fun s s' hs hr =>
      ⟨closed_round hs.1 hr, mem_visited_round hr hs.2.1, balanced_round hs.2.2 hr⟩
  generalize p.search seed a = r at h hb ho
  cases ho with
  | aborted | proved => cases h
  | cut => cases hb
  | exhausted hpop =>
      have hf := Frontier.toList_of_pop?_eq_none hpop
      refine ⟨s.visited, ?_, fun g hg => mem_visited_of_derives hp hseed (hclosed hb) hf hcurrent hg⟩
      rw [hbalanced, ← Frontier.length_toList, hf]
      exact Nat.zero_add _

theorem statesExplored_le_size (p : Prover) (seed : Trace) (hseed : seed.steps = [])
    (a : Cancellation) :
    ∃ w : Std.HashSet Goals, (p.search seed a).statesExplored ≤ w.size ∧
      ∀ k ∈ w, ∃ h, Goals.Derives p.rules seed.current h ∧ p.key h = k := by
  obtain ⟨s, hs, ho⟩ := search_induction seed a (traced_start (p := p) hseed) fun _ _ => traced_round
  have hle : s.statesExplored ≤ s.visited.size := by
    rw [hs.balanced]
    exact Nat.le_add_left _ _
  refine ⟨s.visited, ?_, hs.visited⟩
  generalize p.search seed a = r at ho
  cases ho <;> exact hle

def merging (p : Prover) : Prover :=
  { p with config := { p.config with duplicates := .semantic } }

/-- If a search that tells all goals apart is exhausted and reached no bound, the same search with
merged goals is exhausted too, and it explores no more. -/
theorem merging_explores_no_more (p : Prover) (hp : p.config.duplicates = .structural) (g : Goals)
    (h : (p.prove g).status = .exhausted) (hb : (p.prove g).boundReached = false) :
    (p.merging.prove g).status = .exhausted ∧
      (p.merging.prove g).statesExplored ≤ (p.prove g).statesExplored := by
  let seed : Trace := ⟨g.dischargeTrivial, [], ∅⟩
  obtain ⟨v, hv, hall⟩ := explored_of_exhausted hp seed rfl h hb
  obtain ⟨w, hw, hkeys⟩ := statesExplored_le_size p.merging seed rfl .never
  constructor
  · apply status_eq_exhausted_of_ne
    intro hproved
    obtain ⟨t, ht⟩ := (status_eq_proved_iff p.merging seed .never).1 hproved
    obtain ⟨hend, n, _, hd⟩ := derives_of_proof ht
    obtain ⟨s, hs, hf⟩ := exhausted_closed h hb
    apply not_derives_of_closed hp rfl hs hf
    rw [List.isEmpty_iff.1 hend] at hd
    exact Goals.derives_iff_derivesIn.2 ⟨n, hd⟩
  · calc (p.merging.prove g).statesExplored
        ≤ w.size := hw
      _ ≤ v.size := by
          apply size_le_of_keys p.merging.key
          intro k hk
          obtain ⟨h, hd, he⟩ := hkeys k hk
          exact ⟨h, hall h hd, he⟩
      _ = (p.prove g).statesExplored := hv

theorem merging_explores_no_more_swapped :
    let p := ofConfig { kind := .bestFirst, strategy := "connective_count" }
      [.commutativity, .doubleNegationElimination]
    let d : Diagram := .binary .equivalence .null (.negation .null)
    let g : Goals := [.null, .binary .disjunction (.negation .null) d]
    ((p.prove g).status = .exhausted ∧ (p.prove g).boundReached = false ∧
        (p.prove g).statesExplored = 4) ∧
      (p.merging.prove g).status = .exhausted ∧ (p.merging.prove g).statesExplored ≤ 4 := by
  intro p d g
  have h : (p.prove g).status = .exhausted ∧ (p.prove g).boundReached = false ∧
      (p.prove g).statesExplored = 4 := by
    rw [prove, search_eq_searchListed]
    decide +kernel
  have hmerged := merging_explores_no_more p rfl g h.1 h.2.1
  rw [h.2.2] at hmerged
  exact ⟨h, hmerged⟩

end SpiderDiagrams.Prover
