/-!
Finite sets as strictly increasing lists. A set has one representation, so equality of sets is
equality of lists and the members are always listed in order.
-/

namespace SpiderDiagrams

open Std

structure SortedSet (α : Type) [Ord α] where
  toList : List α
  sorted : toList.Pairwise (fun a b => compare a b = .lt)

namespace SortedSet

variable {α : Type} [Ord α]

theorem eq_of_toList {s t : SortedSet α} (h : s.toList = t.toList) : s = t := by
  cases s; cases t; cases h; rfl

instance [DecidableEq α] : DecidableEq (SortedSet α) := fun s t =>
  decidable_of_iff (s.toList = t.toList) ⟨eq_of_toList, fun h => h ▸ rfl⟩

instance [Hashable α] : Hashable (SortedSet α) := ⟨fun s => hash s.toList⟩

instance : Membership α (SortedSet α) := ⟨fun s a => a ∈ s.toList⟩

instance [DecidableEq α] (a : α) (s : SortedSet α) : Decidable (a ∈ s) :=
  inferInstanceAs (Decidable (a ∈ s.toList))

theorem mem_toList {a : α} {s : SortedSet α} : a ∈ s.toList ↔ a ∈ s := Iff.rfl

def empty : SortedSet α := ⟨[], .nil⟩

instance : EmptyCollection (SortedSet α) := ⟨empty⟩

instance : Inhabited (SortedSet α) := ⟨empty⟩

def isEmpty (s : SortedSet α) : Bool := s.toList.isEmpty

def size (s : SortedSet α) : Nat := s.toList.length

def place (a : α) : List α → List α
  | [] => [a]
  | b :: l => match compare a b with
    | .lt => a :: b :: l
    | .eq => b :: l
    | .gt => b :: place a l

theorem mem_place [LawfulEqOrd α] {a b : α} {l : List α} : b ∈ place a l ↔ b = a ∨ b ∈ l := by
  induction l with
  | nil => simp [place]
  | cons c l ih =>
    rw [place]
    split
    · simp
    · rename_i h
      rw [LawfulEqCmp.eq_of_compare h]
      simp
    · simp only [List.mem_cons, ih]
      grind

theorem place_sorted [TransOrd α] [LawfulEqOrd α] (a : α) {l : List α}
    (h : l.Pairwise (fun a b => compare a b = .lt)) :
    (place a l).Pairwise (fun a b => compare a b = .lt) := by
  induction l with
  | nil => simp [place]
  | cons b l ih =>
    obtain ⟨hb, hl⟩ := List.pairwise_cons.1 h
    rw [place]
    split
    · rename_i hab
      refine List.pairwise_cons.2 ⟨fun c hc => ?_, h⟩
      rcases List.mem_cons.1 hc with rfl | hc
      · exact hab
      · exact TransCmp.lt_trans hab (hb c hc)
    · exact h
    · rename_i hab
      refine List.pairwise_cons.2 ⟨fun c hc => ?_, ih hl⟩
      rcases mem_place.1 hc with rfl | hc
      · exact OrientedCmp.lt_of_gt hab
      · exact hb c hc

theorem nodup [ReflOrd α] (s : SortedSet α) : s.toList.Nodup :=
  s.sorted.imp fun {a b} h => by
    rintro rfl
    simp [ReflCmp.compare_self] at h

def insert [TransOrd α] [LawfulEqOrd α] (s : SortedSet α) (a : α) : SortedSet α :=
  ⟨place a s.toList, place_sorted a s.sorted⟩

@[simp]
theorem mem_insert [TransOrd α] [LawfulEqOrd α] {s : SortedSet α} {a b : α} :
    b ∈ s.insert a ↔ b = a ∨ b ∈ s := mem_place

def ofList [TransOrd α] [LawfulEqOrd α] (l : List α) : SortedSet α := l.foldl insert ∅

@[simp]
theorem not_mem_empty (a : α) : a ∉ (∅ : SortedSet α) := List.not_mem_nil

theorem isEmpty_iff {s : SortedSet α} : s.isEmpty = true ↔ s = ∅ := by
  rw [isEmpty, List.isEmpty_iff]
  exact ⟨fun h => eq_of_toList h, fun h => h ▸ rfl⟩

theorem eq_empty_iff {s : SortedSet α} : s = ∅ ↔ ∀ a, a ∉ s := by
  constructor
  · rintro rfl
    exact not_mem_empty
  · intro h
    exact eq_of_toList (List.eq_nil_iff_forall_not_mem.2 h)

theorem mem_foldl_insert [TransOrd α] [LawfulEqOrd α] {l : List α} {s : SortedSet α} {a : α} :
    a ∈ l.foldl insert s ↔ a ∈ s ∨ a ∈ l := by
  induction l generalizing s with
  | nil => simp
  | cons b l ih => simp only [List.foldl_cons, ih, mem_insert, List.mem_cons]; grind

@[simp]
theorem mem_ofList [TransOrd α] [LawfulEqOrd α] {l : List α} {a : α} :
    a ∈ ofList l ↔ a ∈ l := by
  simp [ofList, mem_foldl_insert]

def union [TransOrd α] [LawfulEqOrd α] (s t : SortedSet α) : SortedSet α := t.toList.foldl insert s

@[simp]
theorem mem_union [TransOrd α] [LawfulEqOrd α] {s t : SortedSet α} {a : α} :
    a ∈ s.union t ↔ a ∈ s ∨ a ∈ t := mem_foldl_insert

def filter (p : α → Bool) (s : SortedSet α) : SortedSet α :=
  ⟨s.toList.filter p, s.sorted.filter p⟩

@[simp]
theorem mem_filter {p : α → Bool} {s : SortedSet α} {a : α} : a ∈ s.filter p ↔ a ∈ s ∧ p a :=
  List.mem_filter

variable [DecidableEq α]

def inter (s t : SortedSet α) : SortedSet α := s.filter (· ∈ t)

def diff (s t : SortedSet α) : SortedSet α := s.filter (· ∉ t)

def subset (s t : SortedSet α) : Bool := s.toList.all (· ∈ t)

@[simp]
theorem mem_inter {s t : SortedSet α} {a : α} : a ∈ s.inter t ↔ a ∈ s ∧ a ∈ t := by simp [inter]

@[simp]
theorem mem_diff {s t : SortedSet α} {a : α} : a ∈ s.diff t ↔ a ∈ s ∧ a ∉ t := by simp [diff]

theorem subset_iff {s t : SortedSet α} : s.subset t ↔ ∀ a ∈ s, a ∈ t := by
  simp [subset, mem_toList]

omit [DecidableEq α] in
theorem eq_of_mem_iff [TransOrd α] {s t : SortedSet α} (h : ∀ a, a ∈ s ↔ a ∈ t) : s = t := by
  apply eq_of_toList
  obtain ⟨l, hl⟩ := s
  obtain ⟨m, hm⟩ := t
  simp only [← mem_toList] at h
  show l = m
  induction l generalizing m with
  | nil =>
    cases m with
    | nil => rfl
    | cons b m => exact absurd ((h b).2 (by simp)) (by simp)
  | cons a l ih =>
    cases m with
    | nil => exact absurd ((h a).1 (by simp)) (by simp)
    | cons b m =>
      obtain ⟨ha, hl'⟩ := List.pairwise_cons.1 hl
      obtain ⟨hb, hm'⟩ := List.pairwise_cons.1 hm
      have hab : a = b := by
        rcases List.mem_cons.1 ((h a).1 (by simp)) with rfl | h₁
        · rfl
        rcases List.mem_cons.1 ((h b).2 (by simp)) with rfl | h₂
        · rfl
        have := TransCmp.lt_trans (hb a h₁) (ha b h₂)
        simp [ReflCmp.compare_self] at this
      subst hab
      have hirr {c : α} (l : List α) (hc : ∀ x ∈ l, compare a x = .lt) (hcl : c ∈ l) : c ≠ a := by
        rintro rfl
        simpa [ReflCmp.compare_self] using hc c hcl
      congr 1
      apply ih hl' m hm'
      intro c
      constructor
      · intro hc
        rcases List.mem_cons.1 ((h c).1 (by simp [hc])) with hca | hc'
        · exact absurd hca (hirr l ha hc)
        · exact hc'
      · intro hc
        rcases List.mem_cons.1 ((h c).2 (by simp [hc])) with hca | hc'
        · exact absurd hca (hirr m hb hc)
        · exact hc'

omit [DecidableEq α] in
theorem ofList_toList [TransOrd α] [LawfulEqOrd α] (s : SortedSet α) : ofList s.toList = s :=
  eq_of_mem_iff fun _ => by rw [mem_ofList, mem_toList]

end SortedSet

instance {α : Type} [Ord α] : Ord (SortedSet α) := ⟨compareOn SortedSet.toList⟩

instance {α : Type} [Ord α] [TransOrd α] : TransOrd (SortedSet α) :=
  inferInstanceAs (TransCmp (compareOn (SortedSet.toList (α := α))))

instance {α : Type} [Ord α] [LawfulEqOrd α] : LawfulEqOrd (SortedSet α) where
  compare_self {s} := show compare s.toList s.toList = .eq from ReflCmp.compare_self
  eq_of_compare {s t} h := SortedSet.eq_of_toList
    (LawfulEqCmp.eq_of_compare (show compare s.toList t.toList = .eq from h))

end SpiderDiagrams
