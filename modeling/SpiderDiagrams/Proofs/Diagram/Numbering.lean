import Mathlib.Logic.Relation
import SpiderDiagrams.Diagram.Occurrence

namespace SpiderDiagrams.Diagram

variable {d d' e e' : Diagram} {i j : Nat}

@[simp]
theorem sub?_zero (d : Diagram) : d.sub? 0 = some d := by
  cases d <;> rfl

theorem size_pos (d : Diagram) : 0 < d.size := by
  cases d <;> exact Nat.succ_pos _

theorem sub?_left {c : Connective} {l r : Diagram} (hi : i < l.size) :
    (binary c l r).sub? (i + 1) = l.sub? i := by
  rw [sub?, if_pos hi]

theorem sub?_right (c : Connective) (l r : Diagram) (i : Nat) :
    (binary c l r).sub? (l.size + i + 1) = r.sub? i := by
  rw [sub?, if_neg (by omega), Nat.add_sub_cancel_left]

theorem exists_sub? (hi : i < d.size) : ∃ e, d.sub? i = some e := by
  induction d generalizing i with
  | null | primary =>
      obtain rfl : i = 0 := Nat.lt_one_iff.1 hi
      exact ⟨_, rfl⟩
  | negation d ih =>
      cases i with
      | zero => exact ⟨_, rfl⟩
      | succ i => exact ih (Nat.lt_of_succ_lt_succ hi)
  | binary c l r ihl ihr =>
      cases i with
      | zero => exact ⟨_, rfl⟩
      | succ i =>
          rw [sub?]
          rw [size] at hi
          by_cases hl : i < l.size
          · rw [if_pos hl]
            exact ihl hl
          · rw [if_neg hl]
            exact ihr (by omega)

/-- What holds of a part and passes from operands to the diagram around them holds of the whole. -/
theorem sub?_induction {P : Nat → Diagram → Prop} (hs : d.sub? i = some e) (root : P 0 e)
    (neg : ∀ i d, P i d → P (i + 1) (.negation d))
    (left : ∀ i c l r, l.sub? i = some e → P i l → P (i + 1) (.binary c l r))
    (right : ∀ i c l r, P i r → P (l.size + i + 1) (.binary c l r)) : P i d := by
  induction d generalizing i with
  | null | primary =>
      cases i with
      | zero => cases hs; exact root
      | succ i => cases hs
  | negation d ih =>
      cases i with
      | zero => cases hs; exact root
      | succ i => exact neg i d (ih hs)
  | binary c l r ihl ihr =>
      cases i with
      | zero => cases hs; exact root
      | succ i =>
          rw [sub?] at hs
          by_cases hi : i < l.size
          · rw [if_pos hi] at hs
            exact left i c l r hs (ihl hs)
          · rw [if_neg hi] at hs
            have h := right (i - l.size) c l r (ihr hs)
            rwa [Nat.add_sub_cancel' (Nat.le_of_not_lt hi)] at h

theorem add_size_le (hs : d.sub? i = some e) : i + e.size ≤ d.size := by
  apply sub?_induction (P := fun i d => i + e.size ≤ d.size) hs (Nat.le_of_eq (Nat.zero_add _))
  · intro i d ih
    rw [size]
    omega
  · intro i c l r _ ih
    rw [size]
    omega
  · intro i c l r ih
    rw [size]
    omega

theorem sub?_add (hs : d.sub? i = some e) (hj : j < e.size) : d.sub? (i + j) = e.sub? j := by
  apply sub?_induction (P := fun i d => d.sub? (i + j) = e.sub? j) hs
  · rw [Nat.zero_add]
  · intro i d ih
    rw [Nat.add_right_comm]
    exact ih
  · intro i c l r hl ih
    have hle := add_size_le hl
    rw [Nat.add_right_comm, sub?_left (by omega)]
    exact ih
  · intro i c l r ih
    rw [Nat.add_right_comm, Nat.add_assoc l.size, sub?_right]
    exact ih

theorem sub?_of_negation (hs : d.sub? i = some (negation e)) : d.sub? (i + 1) = some e := by
  rw [sub?_add hs (Nat.succ_lt_succ e.size_pos)]
  exact e.sub?_zero

theorem sub?_of_left {c : Connective} {l r : Diagram} (hs : d.sub? i = some (binary c l r)) :
    d.sub? (i + 1) = some l := by
  rw [sub?_add hs (Nat.succ_lt_succ (Nat.add_pos_left l.size_pos _)), sub?_left l.size_pos, sub?_zero]

theorem sub?_of_right {c : Connective} {l r : Diagram} (hs : d.sub? i = some (binary c l r)) :
    d.sub? (i + (l.size + 1)) = some r := by
  rw [sub?_add hs (Nat.succ_lt_succ (Nat.lt_add_of_pos_right r.size_pos)), sub?_right c l r 0,
    sub?_zero]

theorem lt_size_of_sub? (hs : d.sub? i = some e) : i < d.size := by
  have hle := add_size_le hs
  have hpos := e.size_pos
  omega

theorem sub?_eq_none_iff : d.sub? i = none ↔ d.size ≤ i := by
  constructor
  · intro hs
    apply Nat.le_of_not_lt
    intro hi
    obtain ⟨e, he⟩ := exists_sub? hi
    cases hs.symm.trans he
  · intro hi
    cases hs : d.sub? i with
    | none => rfl
    | some e => exact absurd (lt_size_of_sub? hs) (Nat.not_lt_of_le hi)

theorem mem_occurrencesFrom {n k : Nat} :
    ⟨n, e⟩ ∈ d.occurrencesFrom k ↔ ∃ i, n = k + i ∧ d.sub? i = some e := by
  induction d generalizing k with
  | null | primary =>
      rw [occurrencesFrom, List.mem_singleton, Occurrence.mk.injEq]
      constructor
      · rintro ⟨rfl, rfl⟩
        exact ⟨0, rfl, rfl⟩
      · rintro ⟨i, rfl, hs⟩
        cases i with
        | zero => cases hs; exact ⟨rfl, rfl⟩
        | succ i => cases hs
  | negation d ih =>
      rw [occurrencesFrom, List.mem_cons, Occurrence.mk.injEq, ih]
      constructor
      · rintro (⟨rfl, rfl⟩ | ⟨i, rfl, hs⟩)
        · exact ⟨0, rfl, rfl⟩
        · exact ⟨i + 1, Nat.add_right_comm k 1 i, hs⟩
      · rintro ⟨i, rfl, hs⟩
        cases i with
        | zero => cases hs; exact .inl ⟨rfl, rfl⟩
        | succ i => exact .inr ⟨i, Nat.add_right_comm k i 1, hs⟩
  | binary c l r ihl ihr =>
      rw [occurrencesFrom, List.cons_append, List.mem_cons, Occurrence.mk.injEq, List.mem_append,
        ihl, ihr]
      constructor
      · rintro (⟨rfl, rfl⟩ | ⟨i, rfl, hs⟩ | ⟨i, rfl, hs⟩)
        · exact ⟨0, rfl, rfl⟩
        · refine ⟨i + 1, Nat.add_right_comm k 1 i, ?_⟩
          rw [sub?_left (lt_size_of_sub? hs)]
          exact hs
        · refine ⟨l.size + i + 1, by omega, ?_⟩
          rw [sub?_right]
          exact hs
      · rintro ⟨i, rfl, hs⟩
        cases i with
        | zero => cases hs; exact .inl ⟨rfl, rfl⟩
        | succ i =>
            rw [sub?] at hs
            by_cases hi : i < l.size
            · rw [if_pos hi] at hs
              exact .inr (.inl ⟨i, Nat.add_right_comm k i 1, hs⟩)
            · rw [if_neg hi] at hs
              exact .inr (.inr ⟨i - l.size, by omega, hs⟩)

theorem mem_occurrences {o : Occurrence} : o ∈ d.occurrences ↔ d.sub? o.index = some o.diagram := by
  rw [occurrences, mem_occurrencesFrom]
  constructor
  · rintro ⟨i, hi, hs⟩
    rwa [hi, Nat.zero_add]
  · intro hs
    exact ⟨o.index, (Nat.zero_add _).symm, hs⟩

@[simp]
theorem replaceAt?_zero (d e : Diagram) : d.replaceAt? 0 e = some e := by
  cases d <;> rfl

theorem replaceAt?_left {c : Connective} {l r : Diagram} (hi : i < l.size) (e : Diagram) :
    (binary c l r).replaceAt? (i + 1) e = (l.replaceAt? i e).map (binary c · r) := by
  rw [replaceAt?, if_pos hi]

theorem replaceAt?_right (c : Connective) (l r : Diagram) (i : Nat) (e : Diagram) :
    (binary c l r).replaceAt? (l.size + i + 1) e = (r.replaceAt? i e).map (binary c l) := by
  rw [replaceAt?, if_neg (by omega), Nat.add_sub_cancel_left]

theorem exists_replaceAt? (hi : i < d.size) (e : Diagram) : ∃ d', d.replaceAt? i e = some d' := by
  obtain ⟨f, hf⟩ := exists_sub? hi
  apply sub?_induction (P := fun i d => ∃ d', d.replaceAt? i e = some d') hf
  · exact ⟨e, replaceAt?_zero f e⟩
  · rintro i d ⟨d', hd⟩
    exact ⟨negation d', by rw [replaceAt?, hd]; rfl⟩
  · rintro i c l r hl ⟨l', hl'⟩
    exact ⟨binary c l' r, by rw [replaceAt?_left (lt_size_of_sub? hl), hl']; rfl⟩
  · rintro i c l r ⟨r', hr'⟩
    exact ⟨binary c l r', by rw [replaceAt?_right, hr']; rfl⟩

theorem sub?_of_replaceAt? (hr : d.replaceAt? i e = some d') : d'.sub? i = some e := by
  induction d generalizing i d' with
  | null | primary =>
      cases i with
      | zero => cases hr; exact sub?_zero e
      | succ i => cases hr
  | negation d ih =>
      cases i with
      | zero => cases hr; exact sub?_zero e
      | succ i =>
          obtain ⟨f, hf, rfl⟩ := Option.map_eq_some_iff.1 hr
          have hs := ih hf
          exact hs
  | binary c l r ihl ihr =>
      cases i with
      | zero => cases hr; exact sub?_zero e
      | succ i =>
          rw [replaceAt?] at hr
          by_cases hl : i < l.size
          · rw [if_pos hl] at hr
            obtain ⟨l', hl', rfl⟩ := Option.map_eq_some_iff.1 hr
            have hs := ihl hl'
            rwa [sub?_left (lt_size_of_sub? hs)]
          · rw [if_neg hl] at hr
            obtain ⟨r', hr', rfl⟩ := Option.map_eq_some_iff.1 hr
            rw [sub?, if_neg hl]
            exact ihr hr'

def IsParent (d : Diagram) (i j : Nat) : Prop :=
  ∃ e k, d.sub? i = some e ∧ k ∈ e.operandOffsets ∧ j = i + k

def IsAncestor (d : Diagram) : Nat → Nat → Prop := Relation.TransGen d.IsParent

theorem operandOffset_bounds {k : Nat} (hk : k ∈ e.operandOffsets) : 0 < k ∧ k < e.size := by
  cases e with
  | null | primary => cases hk
  | negation e =>
      rw [operandOffsets, List.mem_singleton] at hk
      have hpos := e.size_pos
      rw [size]
      omega
  | binary c l r =>
      rw [operandOffsets, List.mem_cons, List.mem_singleton] at hk
      have hl := l.size_pos
      have hr := r.size_pos
      rw [size]
      omega

theorem IsAncestor.bounds (h : d.IsAncestor i j) (hs : d.sub? i = some e) :
    i < j ∧ j < i + e.size := by
  induction h with
  | single hp =>
      obtain ⟨f, k, hf, hk, rfl⟩ := hp
      obtain rfl : e = f := Option.some.inj (hs.symm.trans hf)
      have hb := operandOffset_bounds hk
      omega
  | @tail m j _ hp ih =>
      obtain ⟨f, k, hf, hk, rfl⟩ := hp
      have hb := operandOffset_bounds hk
      have hm : e.sub? (m - i) = some f := by
        rw [← sub?_add hs (by omega), Nat.add_sub_cancel' (Nat.le_of_lt ih.1)]
        exact hf
      have hle := add_size_le hm
      omega

theorem isAncestor_through {f : Diagram} {k : Nat} (hs : d.sub? i = some e)
    (hk : k ∈ e.operandOffsets) (hf : e.sub? k = some f) (hkj : i + k ≤ j)
    (h : d.sub? (i + k) = some f → i + k < j → d.IsAncestor (i + k) j) : d.IsAncestor i j := by
  have hp : d.IsParent i (i + k) := ⟨e, k, hs, hk, rfl⟩
  rcases Nat.eq_or_lt_of_le hkj with rfl | hlt
  · exact .single hp
  · refine .head hp (h ?_ hlt)
    rw [sub?_add hs (operandOffset_bounds hk).2]
    exact hf

theorem isAncestor_of_bounds (hs : d.sub? i = some e) (hij : i < j) (hj : j < i + e.size) :
    d.IsAncestor i j := by
  induction e generalizing i with
  | null | primary =>
      rw [size] at hj
      omega
  | negation e ih =>
      rw [size] at hj
      apply isAncestor_through hs List.mem_cons_self (sub?_zero e) hij
      intro hs' hlt
      exact ih hs' hlt (by omega)
  | binary c l r ihl ihr =>
      rw [size] at hj
      by_cases hl : j < i + 1 + l.size
      · apply isAncestor_through hs List.mem_cons_self ((sub?_left l.size_pos).trans (sub?_zero l)) hij
        intro hs' hlt
        exact ihl hs' hlt hl
      · have hr : (binary c l r).sub? (l.size + 1) = some r :=
          (sub?_right c l r 0).trans (sub?_zero r)
        apply isAncestor_through hs (List.mem_cons_of_mem _ List.mem_cons_self) hr (by omega)
        intro hs' hlt
        exact ihr hs' hlt (by omega)

theorem isAncestor_iff (hs : d.sub? i = some e) : d.IsAncestor i j ↔ i < j ∧ j < i + e.size :=
  ⟨fun h => h.bounds hs, fun h => isAncestor_of_bounds hs h.1 h.2⟩

end SpiderDiagrams.Diagram
