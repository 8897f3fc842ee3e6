import SpiderDiagrams.Search.Frontier

namespace SpiderDiagrams.Frontier

variable {α : Type}

/-- The items of some queues, each with the rank of its queue. -/
def ranked (qs : List (Nat × Queue α)) : List (Nat × α) :=
  qs.flatMap fun q => q.2.toList.map (q.1, ·)

theorem ranked_cons (q : Nat × Queue α) (qs : List (Nat × Queue α)) :
    ranked (q :: qs) = q.2.toList.map (q.1, ·) ++ ranked qs := rfl

theorem exists_of_mem_ranked {qs : List (Nat × Queue α)} {x : Nat × α} (h : x ∈ ranked qs) :
    ∃ q ∈ qs, q.1 = x.1 := by
  obtain ⟨q, hq, hx⟩ := List.mem_flatMap.1 h
  obtain ⟨a, _, rfl⟩ := List.mem_map.1 hx
  exact ⟨q, hq, rfl⟩

theorem filter_le_ranked {qs : List (Nat × Queue α)} {rank : Nat} (h : ∀ q ∈ qs, rank < q.1) :
    (ranked qs).filter (·.1 ≤ rank) = [] := by
  apply List.filter_eq_nil_iff.2
  intro x hx
  obtain ⟨q, hq, he⟩ := exists_of_mem_ranked hx
  have := h q hq
  simp only [decide_eq_true_eq]
  omega

theorem filter_lt_ranked {qs : List (Nat × Queue α)} {rank : Nat} (h : ∀ q ∈ qs, rank < q.1) :
    (ranked qs).filter (rank < ·.1) = ranked qs := by
  apply List.filter_eq_self.2
  intro x hx
  obtain ⟨q, hq, he⟩ := exists_of_mem_ranked hx
  have := h q hq
  simp only [decide_eq_true_eq]
  omega

theorem filter_rank {l : List α} {r : Nat} (f : Nat → Bool) :
    (l.map (r, ·)).filter (fun x => f x.1) = if f r then l.map (r, ·) else [] := by
  by_cases h : f r
  · rw [if_pos h]
    apply List.filter_eq_self.2
    intro x hx
    obtain ⟨a, _, rfl⟩ := List.mem_map.1 hx
    exact h
  · rw [if_neg h]
    apply List.filter_eq_nil_iff.2
    intro x hx
    obtain ⟨a, _, rfl⟩ := List.mem_map.1 hx
    exact h

theorem ranked_place (rank : Nat) (a : α) {qs : List (Nat × Queue α)}
    (h : qs.Pairwise (·.1 < ·.1)) :
    ranked (place rank a qs) =
      (ranked qs).filter (·.1 ≤ rank) ++ (rank, a) :: (ranked qs).filter (rank < ·.1) := by
  induction qs with
  | nil => rfl
  | cons q qs ih =>
      obtain ⟨r, q⟩ := q
      obtain ⟨hq, hqs⟩ := List.pairwise_cons.1 h
      have hle := filter_rank (l := q.toList) (r := r) (fun n => decide (n ≤ rank))
      have hlt := filter_rank (l := q.toList) (r := r) (fun n => decide (rank < n))
      rw [place]
      split
      next hr =>
        have hall : ∀ s ∈ (r, q) :: qs, rank < s.1 := by
          intro s hs
          rcases List.mem_cons.1 hs with rfl | hs
          · exact hr
          · exact Nat.lt_trans hr (hq s hs)
        rw [filter_le_ranked hall, filter_lt_ranked hall]
        rfl
      next hr =>
        split
        next he =>
          subst he
          rw [ranked_cons, ranked_cons, List.filter_append, List.filter_append, hle, hlt,
            filter_le_ranked hq, filter_lt_ranked hq]
          simp
        next hne =>
          have hlt' : r < rank := by omega
          rw [ranked_cons, ranked_cons, List.filter_append, List.filter_append, hle, hlt, ih hqs]
          simp [Nat.le_of_lt hlt', hr]

theorem toList_push (f : Frontier α) (rank : Nat) (a : α) :
    (f.push rank a).toList =
      f.toList.filter (·.1 ≤ rank) ++ (rank, a) :: f.toList.filter (rank < ·.1) :=
  ranked_place rank a f.sorted

@[simp]
theorem toList_empty : (empty : Frontier α).toList = [] := rfl

theorem mem_toList_push {f : Frontier α} {rank : Nat} {a : α} {x : Nat × α} :
    x ∈ (f.push rank a).toList ↔ x = (rank, a) ∨ x ∈ f.toList := by
  rw [toList_push, List.mem_append, List.mem_cons, List.mem_filter, List.mem_filter]
  have hr := Nat.lt_or_ge rank x.1
  simp only [decide_eq_true_eq]
  constructor
  · rintro (h | h | h)
    · exact .inr h.1
    · exact .inl h
    · exact .inr h.1
  · rintro (h | h)
    · exact .inr (.inl h)
    · rcases hr with hr | hr
      · exact .inr (.inr ⟨h, hr⟩)
      · exact .inl ⟨h, hr⟩

theorem length_toList (f : Frontier α) : f.toList.length = f.size := by
  rw [f.size_eq, toList]
  simp [List.length_flatMap]

theorem ranked_take? {qs rs : List (Nat × Queue α)} {a : α} (h : take? qs = some (a, rs)) :
    ∃ r, ranked qs = (r, a) :: ranked rs := by
  induction qs with
  | nil => simp [take?] at h
  | cons q qs ih =>
      obtain ⟨r, q⟩ := q
      rw [take?] at h
      split at h
      next b q' hq =>
        obtain ⟨rfl, rfl⟩ := Prod.mk.inj (Option.some.inj h)
        refine ⟨r, ?_⟩
        rw [ranked_cons, ranked_cons, Queue.pop?_eq_some hq]
        rfl
      next hq =>
        obtain ⟨s, hs⟩ := ih h
        refine ⟨s, ?_⟩
        rw [ranked_cons, Queue.pop?_eq_none hq, hs]
        rfl

theorem ranked_eq_nil_of_take? {qs : List (Nat × Queue α)} (h : take? qs = none) :
    ranked qs = [] := by
  induction qs with
  | nil => rfl
  | cons q qs ih =>
      obtain ⟨r, q⟩ := q
      rw [take?] at h
      split at h
      next => simp at h
      next hq =>
        rw [ranked_cons, Queue.pop?_eq_none hq, ih h]
        rfl

theorem toList_of_pop?_eq_some {f f' : Frontier α} {a : α} (h : f.pop? = some (a, f')) :
    ∃ r, f.toList = (r, a) :: f'.toList := by
  rw [pop?] at h
  split at h
  next => simp at h
  next b qs hqs =>
    obtain ⟨rfl, rfl⟩ := Prod.mk.inj (Option.some.inj h)
    exact ranked_take? hqs

theorem size_of_pop?_eq_some {f f' : Frontier α} {a : α} (h : f.pop? = some (a, f')) :
    f.size = f'.size + 1 := by
  obtain ⟨r, hr⟩ := toList_of_pop?_eq_some h
  rw [← length_toList, ← length_toList, hr, List.length_cons]

theorem toList_of_pop?_eq_none {f : Frontier α} (h : f.pop? = none) : f.toList = [] := by
  rw [pop?] at h
  split at h
  next hqs => exact ranked_eq_nil_of_take? hqs
  next => simp at h

end SpiderDiagrams.Frontier
