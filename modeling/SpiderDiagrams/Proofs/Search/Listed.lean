import SpiderDiagrams.Proofs.Search.Round

namespace SpiderDiagrams.Prover

variable (p : Prover)

/-- A search under way with its visited keys apart. -/
structure Listed where
  state : SearchState
  keys : List Goals

def Listed.hashed (x : Listed) : SearchState := { x.state with visited := .ofList x.keys }

def considerListed (t : Trace) (x : Listed) (i : Nat) (c : Candidate) : Listed :=
  match c.rule.apply (c.argument i) t.current with
  | .error e => { x with state := x.state.note (.rejected c.rule (c.argument i) e) }
  | .ok g =>
    if p.key g ∈ x.keys then
      { x with state := (generated x.state).note (.duplicate c.rule (c.argument i)) }
    else if p.config.maxFrontier ≤ x.state.frontier.size then
      { x with state := { generated x.state with boundReached := true } }
    else ⟨p.enqueue (t.push ⟨c.rule.name, c.argument i, .automatic⟩ g) (generated x.state),
      x.keys ++ [p.key g]⟩

def considerAllListed (t : Trace) (l : List (Nat × Candidate)) (x : Listed) : Listed :=
  l.foldl (fun x (i, c) => p.considerListed t x i c) x

def exploreListed (base : Nat) (t : Trace) (f : Frontier Trace) (x : Listed) : Listed :=
  let y : Listed := { x with state := taken base t f x.state }
  if p.config.maxDepth ≤ t.steps.length - base then
    { y with state := { y.state with boundReached := true } }
  else
    let z := p.considerAllListed t (t.current.candidates p.rules) y
    { z with state := expanded (t.steps.length - base) x.state.ranked z.state }

def runListed (base : Nat) (a : Cancellation) : Nat → Listed → SearchResult
  | n, x =>
    if x.state.isCalledOff a then x.state.finish .aborted none
    else match x.state.frontier.pop? with
    | none => x.state.finish .exhausted none
    | some (t, f) =>
      if t.isFinished then x.state.finish .proved t
      else match n with
      | 0 => { x.state with boundReached := true }.finish .exhausted none
      | n + 1 => runListed base a n (p.exploreListed base t f x)

def searchListed (seed : Trace) (a : Cancellation) : SearchResult :=
  p.runListed seed.steps.length a p.config.maxStates
    ⟨{ p.start seed with visited := ∅ }, seed.states.map p.key⟩

theorem ofList_append_singleton (l : List Goals) (k : Goals) :
    Std.HashSet.ofList (l ++ [k]) = (Std.HashSet.ofList l).insert k := by
  rw [Std.HashSet.ofList_eq_insertMany_empty, Std.HashSet.insertMany_append,
    Std.HashSet.insertMany_list_singleton, ← Std.HashSet.ofList_eq_insertMany_empty]

theorem enqueue_hashed (t : Trace) (s : SearchState) (v : Std.HashSet Goals) :
    p.enqueue t { s with visited := v } = { p.enqueue t s with visited := v } := by
  rw [enqueue, enqueue]
  cases p.estimate t <;> rfl

theorem consider_hashed (t : Trace) (x : Listed) (i : Nat) (c : Candidate) :
    p.consider t x.hashed i c = (p.considerListed t x i c).hashed := by
  rw [consider, considerListed]
  cases c.rule.apply (c.argument i) t.current with
  | error e => rfl
  | ok g =>
      have hc : x.hashed.visited.contains (p.key g) = decide (p.key g ∈ x.keys) := by
        simp [Listed.hashed]
      by_cases hk : p.key g ∈ x.keys
      · simp only [hc, hk, decide_true, if_true]
        rfl
      · by_cases hf : p.config.maxFrontier ≤ x.state.frontier.size
        · simp only [hc, hk, decide_false, Bool.false_eq_true, if_false, hf, if_true,
            show x.hashed.frontier = x.state.frontier from rfl]
          rfl
        · simp only [hc, hk, decide_false, Bool.false_eq_true, if_false, hf,
            show x.hashed.frontier = x.state.frontier from rfl]
          rw [Listed.hashed, Listed.hashed, ofList_append_singleton]
          exact p.enqueue_hashed _ (generated x.state) _

theorem considerAll_hashed (t : Trace) (l : List (Nat × Candidate)) (x : Listed) :
    p.considerAll t l x.hashed = (p.considerAllListed t l x).hashed := by
  induction l generalizing x with
  | nil => rfl
  | cons y l ih =>
      obtain ⟨i, c⟩ := y
      calc p.considerAll t ((i, c) :: l) x.hashed
          = p.considerAll t l (p.consider t x.hashed i c) := rfl
        _ = p.considerAll t l (p.considerListed t x i c).hashed := by rw [consider_hashed]
        _ = (p.considerAllListed t l (p.considerListed t x i c)).hashed := ih _

theorem explore_hashed (base : Nat) (t : Trace) (f : Frontier Trace) (x : Listed) :
    p.explore base t { x.hashed with frontier := f } = (p.exploreListed base t f x).hashed := by
  have ht : taken base t f x.hashed = Listed.hashed { x with state := taken base t f x.state } := rfl
  rw [explore_eq, exploreListed, ht]
  by_cases hd : p.config.maxDepth ≤ t.steps.length - base
  · simp only [hd, if_true]
    rfl
  · simp only [hd, if_false]
    rw [considerAll_hashed]
    rfl

theorem run_hashed (base : Nat) (a : Cancellation) (n : Nat) (x : Listed) :
    (p.run base a n x.hashed).1 = p.runListed base a n x := by
  have hr (x : Listed) : x.hashed.isCalledOff a = x.state.isCalledOff a := rfl
  have hf (x : Listed) : x.hashed.frontier = x.state.frontier := rfl
  fun_induction runListed p base a n x with
  | case1 n x ha =>
      rw [run, hr, if_pos ha]
      rfl
  | case2 n x ha hp =>
      rw [run, hr, if_neg ha, hf, hp]
      rfl
  | case3 n x ha t f hp ht =>
      rw [run, hr, if_neg ha, hf, hp]
      simp only [ht, if_true]
      rfl
  | case4 x ha t f hp ht =>
      rw [run, hr, if_neg ha, hf, hp]
      simp only [ht, Bool.false_eq_true, if_false]
      rfl
  | case5 x ha t f hp ht n ih =>
      rw [run, hr, if_neg ha, hf, hp]
      simp only [ht, Bool.false_eq_true, if_false]
      rw [← ih, ← explore_hashed]

theorem search_eq_searchListed (seed : Trace) (a : Cancellation) :
    p.search seed a = p.searchListed seed a := by
  have hs : p.start seed =
      Listed.hashed ⟨{ p.start seed with visited := ∅ }, seed.states.map p.key⟩ := by
    rw [start, enqueue]
    cases p.estimate seed <;> rfl
  calc p.search seed a
      = (p.run seed.steps.length a p.config.maxStates (p.start seed)).1 := rfl
    _ = p.searchListed seed a := by
        rw [hs]
        exact p.run_hashed _ _ _ _

end SpiderDiagrams.Prover
