import SpiderDiagrams.Proofs.Diagram.Numbering

namespace SpiderDiagrams.Diagram

variable {d d' e l l' r r' : Diagram} {i k : Nat} {rs ts : List (Nat × Diagram)}

/-- Puts diagrams in place of the sub-diagrams with the given numbers, from the last entry to the
first. -/
def replaceEach (d : Diagram) : List (Nat × Diagram) → Option Diagram
  | [] => some d
  | (i, e) :: rs => (d.replaceEach rs).bind (·.replaceAt? i e)

def shifted (k : Nat) (r : Nat × Diagram) : Nat × Diagram := (r.1 + k, r.2)

theorem map_shifted (rs : List (Nat × Diagram)) (j k : Nat) :
    (rs.map (shifted j)).map (shifted k) = rs.map (shifted (k + j)) := by
  rw [List.map_map]
  apply List.map_congr_left
  intro p _
  exact congrArg (·, p.2) (by dsimp only [Function.comp_apply, shifted]; omega)

theorem replaceEach_append (d : Diagram) (rs ts : List (Nat × Diagram)) :
    d.replaceEach (rs ++ ts) = (d.replaceEach ts).bind (·.replaceEach rs) := by
  induction rs with
  | nil => exact (Option.bind_fun_some _).symm
  | cons p rs ih =>
      rw [List.cons_append, replaceEach, ih, Option.bind_assoc]
      rfl

theorem replaceEach_negation (d : Diagram) (rs : List (Nat × Diagram)) :
    (negation d).replaceEach (rs.map (shifted 1)) = (d.replaceEach rs).map negation := by
  induction rs with
  | nil => rfl
  | cons p rs ih =>
      rw [List.map_cons, replaceEach, shifted, ih, replaceEach, Option.bind_map, Option.map_bind]
      rfl

theorem replaceEach_right (c : Connective) (l r : Diagram) (rs : List (Nat × Diagram)) :
    (binary c l r).replaceEach (rs.map (shifted (l.size + 1))) =
      (r.replaceEach rs).map (binary c l) := by
  induction rs with
  | nil => rfl
  | cons p rs ih =>
      rw [List.map_cons, replaceEach, shifted, ih, replaceEach, Option.bind_map, Option.map_bind]
      congr 1
      funext x
      show (binary c l x).replaceAt? (p.1 + l.size + 1) p.2 = _
      rw [Nat.add_comm p.1, replaceAt?_right]
      rfl

theorem lt_size_of_replaceEach (hi : i < d.size) (hlt : ∀ p ∈ rs, i < p.1)
    (h : d.replaceEach rs = some d') : i < d'.size := by
  cases rs with
  | nil => cases h; exact hi
  | cons p rs =>
      obtain ⟨x, _, hx⟩ := Option.bind_eq_some_iff.1 h
      exact Nat.lt_trans (hlt p List.mem_cons_self) (lt_size_of_sub? (sub?_of_replaceAt? hx))

theorem replaceEach_left (c : Connective) (r : Diagram) (hsorted : rs.Pairwise (·.1 < ·.1))
    (hrange : ∀ p ∈ rs, p.1 < l.size) :
    (binary c l r).replaceEach (rs.map (shifted 1)) = (l.replaceEach rs).map (binary c · r) := by
  induction rs with
  | nil => rfl
  | cons p rs ih =>
      obtain ⟨hp, hrs⟩ := List.pairwise_cons.1 hsorted
      obtain ⟨hpl, hrl⟩ := List.forall_mem_cons.1 hrange
      rw [List.map_cons, replaceEach, shifted, ih hrs hrl, replaceEach]
      cases hx : l.replaceEach rs with
      | none => rfl
      | some x => exact replaceAt?_left (lt_size_of_replaceEach hpl hp hx) p.2

/-- What replacements make of a diagram, where their numbers increase and are in use. -/
structure Rewrites (d : Diagram) (rs : List (Nat × Diagram)) (d' : Diagram) : Prop where
  sorted : rs.Pairwise (·.1 < ·.1)
  inRange : ∀ p ∈ rs, p.1 < d.size
  result : d.replaceEach rs = some d'

namespace Rewrites

theorem refl (d : Diagram) : Rewrites d [] d :=
  ⟨.nil, by simp, rfl⟩

theorem root (d e : Diagram) : Rewrites d [(0, e)] e :=
  ⟨List.pairwise_singleton _ _, List.forall_mem_singleton.2 d.size_pos, replaceAt?_zero d e⟩

theorem sorted_shifted (h : Rewrites d rs d') (k : Nat) :
    (rs.map (shifted k)).Pairwise (·.1 < ·.1) :=
  List.pairwise_map.2 (h.sorted.imp fun hlt => Nat.add_lt_add_right hlt k)

theorem negation (h : Rewrites d rs d') :
    Rewrites (.negation d) (rs.map (shifted 1)) (.negation d') := by
  refine ⟨h.sorted_shifted 1, ?_, ?_⟩
  · exact List.forall_mem_map.2 fun p hp => Nat.succ_lt_succ (h.inRange p hp)
  · rw [replaceEach_negation, h.result]
    rfl

theorem binary (c : Connective) (hl : Rewrites l rs l') (hr : Rewrites r ts r') :
    Rewrites (.binary c l r) (rs.map (shifted 1) ++ ts.map (shifted (l.size + 1)))
      (.binary c l' r') := by
  have hleft : ∀ p ∈ rs.map (shifted 1), p.1 < l.size + 1 :=
    List.forall_mem_map.2 fun p hp => Nat.succ_lt_succ (hl.inRange p hp)
  have hright : ∀ p ∈ ts.map (shifted (l.size + 1)),
      l.size + 1 ≤ p.1 ∧ p.1 < l.size + r.size + 1 := by
    refine List.forall_mem_map.2 fun p hp => ?_
    have hlt := hr.inRange p hp
    rw [shifted]
    omega
  refine ⟨List.pairwise_append.2 ⟨hl.sorted_shifted 1, hr.sorted_shifted _, ?_⟩,
    List.forall_mem_append.2 ⟨?_, fun p hp => (hright p hp).2⟩, ?_⟩
  · intro p hp q hq
    exact Nat.lt_of_lt_of_le (hleft p hp) (hright q hq).1
  · intro p hp
    have hlt := hleft p hp
    rw [size]
    omega
  · rw [replaceEach_append, replaceEach_right, hr.result, Option.map_some, Option.bind_some,
      replaceEach_left c r' hl.sorted hl.inRange, hl.result]
    rfl

end Rewrites

end SpiderDiagrams.Diagram
