import SpiderDiagrams.Proofs.Search.Round

namespace SpiderDiagrams.Prover

variable {p : Prover} {seed t : Trace} {s s' : SearchState}

/-- Each visited key waits or was explored. -/
def Balanced (s : SearchState) : Prop := s.visited.size = s.frontier.size + s.statesExplored

theorem balanced_start (p : Prover) (hseed : seed.steps = []) : Balanced (p.start seed) := by
  have hstates : seed.states = [seed.initial] := by simp [Trace.states, hseed]
  simp [Balanced, start, hstates, Frontier.push, Frontier.empty, Std.HashSet.ofList_singleton,
    Std.HashSet.size_insert]

theorem balanced_considers {i : Nat} {c : Candidate} (h : Considers p t i c s s')
    (hs : Balanced s) : Balanced s' := by
  cases h with
  | rejected | duplicate | dropped => exact hs
  | queued g ha hv hf =>
      rw [Balanced, visited_enqueue, frontier_enqueue, statesExplored_enqueue,
        Std.HashSet.size_insert, if_neg hv, generated, hs]
      exact Nat.add_right_comm _ _ 1

theorem balanced_taken (base : Nat) {f : Frontier Trace} (hp : s.frontier.pop? = some (t, f))
    (hs : Balanced s) : Balanced (taken base t f s) := by
  rw [Balanced, taken, hs, Frontier.size_of_pop?_eq_some hp]
  exact Nat.add_right_comm _ _ _

theorem balanced_round {base : Nat} (hs : Balanced s) (h : Round p base s s') : Balanced s' := by
  cases h with
  | cut t f hp ht hd => exact balanced_taken base hp hs
  | expand t f hp ht hd =>
      exact considerAll_induction (P := Balanced) _
        (fun i c u u' _ hu hstep => balanced_considers hstep hu) (balanced_taken base hp hs)

end SpiderDiagrams.Prover
