import Mathlib.Data.List.Nodup
import Mathlib.Data.Multiset.AddSub
import SpiderDiagrams.Proofs.Search.Machine
import SpiderDiagrams.Proofs.Trace

namespace SpiderDiagrams

namespace Frontier

variable {α : Type}

def items (f : Frontier α) : List α := f.toList.map (·.2)

theorem perm_toList_push (f : Frontier α) (rank : Nat) (a : α) :
    (f.push rank a).toList.Perm ((rank, a) :: f.toList) := by
  rw [toList_push]
  refine List.perm_middle.trans (.cons _ ?_)
  have hnot : (fun x : Nat × α => decide (rank < x.1)) = fun x => !decide (x.1 ≤ rank) := by
    funext x
    simp only [← decide_not, Nat.not_le]
  rw [hnot]
  exact List.filter_append_perm _ _

theorem perm_items_push (f : Frontier α) (rank : Nat) (a : α) :
    (f.push rank a).items.Perm (a :: f.items) :=
  (perm_toList_push f rank a).map _

theorem items_of_pop?_eq_some {f f' : Frontier α} {a : α} (h : f.pop? = some (a, f')) :
    f.items = a :: f'.items := by
  obtain ⟨r, hr⟩ := toList_of_pop?_eq_some h
  rw [items, hr]
  rfl

theorem push_ne_self (f : Frontier α) (rank : Nat) (a : α) : f.push rank a ≠ f := by
  intro h
  have hsize : f.size + 1 = f.size := congrArg size h
  omega

theorem eq_of_push_eq {f : Frontier α} {rank rank' : Nat} {a a' : α}
    (h : f.push rank a = f.push rank' a') : a = a' := by
  have hperm : (a :: f.items).Perm (a' :: f.items) :=
    (perm_items_push f rank a).symm.trans (h ▸ perm_items_push f rank' a')
  exact (Multiset.cons_inj_left (f.items : Multiset α)).1 (Multiset.coe_eq_coe.2 hperm)

end Frontier

namespace Prover

variable {p : Prover} {seed t u : Trace} {s s' : SearchState} {b b' : Ledger} {base n k i rank : Nat}
  {a : Cancellation} {c : Candidate} {l : List (Nat × Candidate)} {g : Goals} {m m' : Moment}

/-- The key is that of goals of the seed, or of the last goals of a trace that was pushed. -/
def Known (p : Prover) (seed : Trace) (b : Ledger) (key : Goals) : Prop :=
  (∃ g ∈ seed.states, p.key g = key) ∨ ∃ t ∈ b.pushed, p.key t.current = key

/-- A ledger accounts for a state of the search from a seed. -/
structure Books (p : Prover) (seed : Trace) (s : SearchState) (b : Ledger) : Prop where
  visited : ∀ key, key ∈ s.visited ↔ Known p seed b key
  distinct : ∃ later, b.pushed = seed :: later ∧ (later.map (p.key ·.current)).Nodup ∧
    ∀ t ∈ later, ∀ g ∈ seed.states, p.key t.current ≠ p.key g
  balance : b.pushed.Perm (b.popped ++ s.frontier.items)

theorem books_start (p : Prover) (seed : Trace) : Books p seed (p.start seed) ⟨[seed], []⟩ where
  visited := by
    intro key
    rw [mem_visited_start, Known]
    constructor
    · exact .inl
    · rintro (h | ⟨t, ht, hk⟩)
      · exact h
      · rw [List.mem_singleton.1 ht] at hk
        exact ⟨seed.current, seed.current_mem_states, hk⟩
  distinct := ⟨[], rfl, List.nodup_nil, by simp⟩
  balance := by rw [Frontier.items, toList_frontier_start]; rfl

theorem Books.keep (h : Books p seed s b) (hf : s'.frontier = s.frontier)
    (hv : s'.visited = s.visited) : Books p seed s' b where
  visited := hv ▸ h.visited
  distinct := h.distinct
  balance := hf ▸ h.balance

theorem Books.pop (h : Books p seed s b) (hp : s.frontier.pop? = some (t, s'.frontier))
    (hv : s'.visited = s.visited) : Books p seed s' (b.pop t) where
  visited := hv ▸ h.visited
  distinct := h.distinct
  balance := by
    have hb := h.balance
    rw [Frontier.items_of_pop?_eq_some hp] at hb
    rw [Ledger.pop, List.append_assoc]
    exact hb

theorem known_push {key : Goals} :
    Known p seed (b.push u) key ↔ Known p seed b key ∨ p.key u.current = key := by
  simp only [Known, Ledger.push, List.mem_append, List.mem_singleton, or_and_right, exists_or,
    exists_eq_left, or_assoc]

theorem Books.push (h : Books p seed s b) (hf : s'.frontier = s.frontier.push rank u)
    (hk : p.key u.current ∉ s.visited) (hv : s'.visited = s.visited.insert (p.key u.current)) :
    Books p seed s' (b.push u) where
  visited := by
    intro key
    rw [hv, Std.HashSet.mem_insert, beq_iff_eq, h.visited, known_push, or_comm]
  distinct := by
    obtain ⟨later, hl, hnodup, hseed⟩ := h.distinct
    rw [h.visited, Known, not_or] at hk
    refine ⟨later ++ [u], by rw [Ledger.push, hl]; rfl, ?_, ?_⟩
    · rw [List.map_append]
      refine hnodup.append (List.nodup_singleton _) (List.disjoint_singleton.2 ?_)
      intro hm
      obtain ⟨t, ht, he⟩ := List.mem_map.1 hm
      exact hk.2 ⟨t, hl ▸ List.mem_cons_of_mem _ ht, he⟩
    · intro t ht g hg he
      rcases List.mem_append.1 ht with ht | ht
      · exact hseed t ht g hg he
      · rw [List.mem_singleton.1 ht] at he
        exact hk.1 ⟨g, hg, he.symm⟩
  balance := by
    rw [hf]
    refine (List.perm_append_singleton u b.pushed).trans ?_
    refine (h.balance.cons u).trans (List.perm_middle.symm.trans ?_)
    exact (Frontier.perm_items_push _ _ _).symm.append_left _

/-- No trace is pushed twice, so by the balance each is popped once or waits. -/
theorem Books.nodup (h : Books p seed s b) : b.pushed.Nodup := by
  obtain ⟨later, hl, hnodup, hseed⟩ := h.distinct
  rw [hl]
  refine List.nodup_cons.2 ⟨?_, hnodup.of_map _⟩
  intro hm
  exact hseed seed hm seed.current (seed.current_mem_states) rfl

/-- A ledger is kept along with the frontier. -/
inductive Enters (p : Prover) (s : SearchState) (b : Ledger) (s' : SearchState) : Ledger → Prop
  | keep (hf : s'.frontier = s.frontier) : Enters p s b s' b
  | push {u : Trace} (hf : s'.frontier = s.frontier.push (p.rank u) u) : Enters p s b s' (b.push u)

theorem Enters.eq_of_keep (h : Enters p s b s' b') (hf : s'.frontier = s.frontier) : b' = b := by
  cases h with
  | keep => rfl
  | push he => exact absurd (he.symm.trans hf) (Frontier.push_ne_self _ _ _)

theorem Enters.eq_of_push (h : Enters p s b s' b')
    (hf : s'.frontier = s.frontier.push (p.rank u) u) : b' = b.push u := by
  cases h with
  | keep he => exact absurd (hf.symm.trans he) (Frontier.push_ne_self _ _ _)
  | push he => rw [Frontier.eq_of_push_eq (he.symm.trans hf)]

/-- What becomes of a successor, in the order of the tests: it is known, there is no room for it, or
it is pushed. -/
inductive Fate (p : Prover) (seed : Trace) (s : SearchState) (b : Ledger) (u : Trace)
    (s' : SearchState) : Ledger → Prop
  | known (hk : Known p seed b (p.key u.current)) (hf : s'.frontier = s.frontier)
      (hv : s'.visited = s.visited) (hr : s'.boundReached = s.boundReached) : Fate p seed s b u s' b
  | dropped (hk : ¬ Known p seed b (p.key u.current)) (hm : p.config.maxFrontier ≤ s.frontier.size)
      (hf : s'.frontier = s.frontier) (hv : s'.visited = s.visited) (hr : s'.boundReached = true) :
      Fate p seed s b u s' b
  | pushed (hk : ¬ Known p seed b (p.key u.current)) (hm : s.frontier.size < p.config.maxFrontier)
      (hf : s'.frontier = s.frontier.push (p.rank u) u)
      (hv : s'.visited = s.visited.insert (p.key u.current))
      (hr : s'.boundReached = s.boundReached) : Fate p seed s b u s' (b.push u)

theorem Books.fate (h : Books p seed s b) (hg : c.rule.apply (c.argument i) t.current = .ok g)
    (hc : Considers p t i c s s') (he : Enters p s b s' b') :
    Fate p seed s b (t.push ⟨c.rule.name, c.argument i, .automatic⟩ g) s' b' := by
  cases hc with
  | rejected e hr =>
      rw [hg] at hr
      cases hr
  | duplicate g' hr hv =>
      obtain rfl : g = g' := Except.ok.inj (hg.symm.trans hr)
      obtain rfl := he.eq_of_keep rfl
      exact .known ((h.visited _).1 hv) rfl rfl rfl
  | dropped g' hr hv hm =>
      obtain rfl : g = g' := Except.ok.inj (hg.symm.trans hr)
      obtain rfl := he.eq_of_keep rfl
      exact .dropped (mt (h.visited _).2 hv) hm rfl rfl rfl
  | queued g' hr hv hm =>
      obtain rfl : g = g' := Except.ok.inj (hg.symm.trans hr)
      obtain rfl := he.eq_of_push (frontier_enqueue _ _)
      exact .pushed (mt (h.visited _).2 hv) hm (frontier_enqueue _ _) (visited_enqueue _ _)
        (boundReached_enqueue _ _)

theorem Books.of_fate (h : Books p seed s b) (hf : Fate p seed s b u s' b') :
    Books p seed s' b' := by
  cases hf with
  | known _ hf hv _ | dropped _ _ hf hv _ => exact h.keep hf hv
  | pushed hk _ hf hv _ => exact h.push hf (mt (h.visited _).1 hk) hv

theorem Books.considers (h : Books p seed s b) (hc : Considers p t i c s s')
    (he : Enters p s b s' b') : Books p seed s' b' := by
  cases hg : c.rule.apply (c.argument i) t.current with
  | error e =>
      cases hc with
      | rejected =>
          obtain rfl := he.eq_of_keep rfl
          exact h.keep rfl rfl
      | duplicate g hr | dropped g hr | queued g hr =>
          rw [hg] at hr
          cases hr
  | ok g => exact h.of_fate (h.fate hg hc he)

theorem books_moves (hb : Books p seed m.state m.ledger) (h : Moves p base a m m') :
    Books p seed m'.state m'.ledger := by
  cases h with
  | abort | exhaust => exact hb
  | prove _ hp _ | stop _ hp _ | cut _ hp _ _ | take _ hp _ _ => exact hb.pop hp rfl
  | queue hf => exact hb.considers (considers_consider ..) (.push hf)
  | pass hf => exact hb.considers (considers_consider ..) (.keep hf)
  | close => exact hb.keep rfl rfl

theorem books_reaches (h : Reaches p base a (p.opening seed) m) :
    Books p seed m.state m.ledger := by
  induction h with
  | refl => exact books_start p seed
  | tail _ hm ih => exact books_moves ih hm

/-- A trace whose candidates are gone through was popped, and those that are left are its last. -/
def Underway (p : Prover) (m : Moment) : Prop :=
  ∀ n t k l, m.cursor = .body n t k l → t ∈ m.ledger.popped ∧ l <:+ t.current.candidates p.rules

theorem underway_moves (hu : Underway p m) (h : Moves p base a m m') : Underway p m' := by
  intro n t k l hc
  cases h with
  | abort | exhaust | prove | stop | cut | close => cases hc
  | take =>
      cases hc
      exact ⟨List.mem_append_right _ List.mem_cons_self, List.suffix_rfl⟩
  | queue | pass =>
      cases hc
      obtain ⟨ht, hl⟩ := hu _ _ _ _ rfl
      exact ⟨ht, (List.suffix_cons _ _).trans hl⟩

theorem underway_reaches (h : Reaches p base a (p.opening seed) m) : Underway p m := by
  induction h with
  | refl =>
      intro n t k l hc
      cases hc
  | tail _ hm ih => exact underway_moves ih hm

theorem fate_of_moves (hb : Books p seed s b)
    (hg : c.rule.apply (c.argument i) t.current = .ok g)
    (h : Moves p base a ⟨.body n t k ((i, c) :: l), s, b⟩ m) :
    m.cursor = .body n t k l ∧
      Fate p seed s b (t.push ⟨c.rule.name, c.argument i, .automatic⟩ g) m.state m.ledger := by
  cases h with
  | queue hf => exact ⟨rfl, hb.fate hg (considers_consider ..) (.push hf)⟩
  | pass hf => exact ⟨rfl, hb.fate hg (considers_consider ..) (.keep hf)⟩

/-- At every moment of every search the books are right and no trace was pushed twice; and the next
candidate for a trace that was popped, if it has a successor, ends in one of the three fates. The
moments are those of the search: the result at their end is its result. -/
theorem search_keeps_books (p : Prover) (seed : Trace) (a : Cancellation) :
    (∀ r, (∃ s b, Reaches p seed.steps.length a (p.opening seed) ⟨.over r, s, b⟩) ↔
      r = p.search seed a) ∧
    ∀ x s b, Reaches p seed.steps.length a (p.opening seed) ⟨x, s, b⟩ →
      Books p seed s b ∧ b.pushed.Nodup ∧
      ∀ n t k i c l, x = .body n t k ((i, c) :: l) →
        t ∈ b.popped ∧ ((i, c) :: l) <:+ t.current.candidates p.rules ∧
        (∃ m, Moves p seed.steps.length a ⟨x, s, b⟩ m) ∧
        ∀ g m, c.rule.apply (c.argument i) t.current = .ok g →
          Moves p seed.steps.length a ⟨x, s, b⟩ m →
          m.cursor = .body n t k l ∧
            Fate p seed s b (t.push ⟨c.rule.name, c.argument i, .automatic⟩ g) m.state m.ledger := by
  refine ⟨fun r => reaches_over_iff, ?_⟩
  intro x s b h
  have hb : Books p seed s b := books_reaches h
  refine ⟨hb, hb.nodup, ?_⟩
  rintro n t k i c l rfl
  obtain ⟨ht, hl⟩ := underway_reaches h _ _ _ _ rfl
  obtain ⟨b', hm⟩ := exists_moves_consider p seed.steps.length a n k t i c l s b
  refine ⟨ht, hl, ⟨_, hm⟩, ?_⟩
  intro g m hg hmoves
  exact fate_of_moves hb hg hmoves

def cramped : Prover := ofConfig { maxFrontier := 1 } [.commutativity, .conjunctionElimination]

def lopsided : Trace := { initial := [.binary .conjunction (.negation .null) .null] }

def swapped : Trace :=
  lopsided.push ⟨Rule.commutativity.name, .single ⟨0, 0⟩, .automatic⟩
    [.binary .conjunction .null (.negation .null)]

/-- The swap fills the frontier, so the first operand alone is dropped, and it is not marked. -/
theorem search_keeps_books_cramped :
    ∃ x s b m, Reaches cramped 0 .never (cramped.opening lopsided) ⟨x, s, b⟩ ∧
      Moves cramped 0 .never ⟨x, s, b⟩ m ∧ b.pushed = [lopsided, swapped] ∧ m.ledger = b ∧
      m.state.boundReached = true ∧ [.negation .null] ∉ m.state.visited := by
  obtain ⟨_, hall⟩ := search_keeps_books cramped lopsided .never
  have hpop : (cramped.start lopsided).frontier.pop? =
      some (lopsided, ⟨[(0, ⟨[], []⟩)], 0, by simp, rfl⟩) := rfl
  have hc : lopsided.current.candidates cramped.rules =
      [(0, ⟨.commutativity, 0, .none⟩), (0, ⟨.conjunctionElimination, 0, .operand 1⟩),
        (0, ⟨.conjunctionElimination, 0, .operand 3⟩)] := by decide
  have htake : Moves cramped 0 .never (cramped.opening lopsided) _ :=
    .take rfl hpop rfl (by decide)
  rw [hc] at htake
  obtain ⟨_, _, hnext⟩ := hall _ _ _ (.single htake)
  obtain ⟨_, _, ⟨⟨x, s, b⟩, hswap⟩, hfate⟩ := hnext _ _ _ _ _ _ rfl
  obtain ⟨rfl, hfate⟩ := hfate [.binary .conjunction .null (.negation .null)] _ rfl hswap
  cases hfate with
  | known hk => exact absurd hk (by rw [Known]; decide)
  | dropped _ hm => exact absurd hm (by decide)
  | pushed _ _ hf _ _ =>
      obtain ⟨hb, _, hnext⟩ := hall _ _ _ (.tail (.single htake) hswap)
      obtain ⟨_, _, ⟨m, hkeep⟩, hfate⟩ := hnext _ _ _ _ _ _ rfl
      obtain ⟨_, hfate⟩ := hfate [.negation .null] _ rfl hkeep
      refine ⟨_, _, _, m, .tail (.single htake) hswap, hkeep, rfl, ?_⟩
      generalize hl : m.ledger = b' at hfate
      cases hfate with
      | known hk => exact absurd hk (by rw [Known]; decide)
      | dropped hk _ _ hv hr =>
          refine ⟨rfl, hr, ?_⟩
          rw [hv]
          exact mt (hb.visited _).1 hk
      | pushed _ hm => exact absurd hm (by rw [hf]; decide)

end Prover

end SpiderDiagrams
