import SpiderDiagrams.SortedSet

namespace SpiderDiagrams

open Std

structure SortedMap (κ ν : Type) [Ord κ] where
  entries : List (κ × ν)
  sorted : entries.Pairwise (fun a b => compare a.1 b.1 = .lt)

namespace SortedMap

variable {κ ν : Type} [Ord κ]

theorem eq_of_entries {m n : SortedMap κ ν} (h : m.entries = n.entries) : m = n := by
  cases m; cases n; cases h; rfl

instance [DecidableEq κ] [DecidableEq ν] : DecidableEq (SortedMap κ ν) := fun m n =>
  decidable_of_iff (m.entries = n.entries) ⟨eq_of_entries, fun h => h ▸ rfl⟩

instance [Hashable κ] [Hashable ν] : Hashable (SortedMap κ ν) := ⟨fun m => hash m.entries⟩

def empty : SortedMap κ ν := ⟨[], .nil⟩

instance : EmptyCollection (SortedMap κ ν) := ⟨empty⟩

instance : Inhabited (SortedMap κ ν) := ⟨empty⟩

def isEmpty (m : SortedMap κ ν) : Bool := m.entries.isEmpty

def get? [BEq κ] (m : SortedMap κ ν) (k : κ) : Option ν := m.entries.lookup k

def keys (m : SortedMap κ ν) : SortedSet κ :=
  ⟨m.entries.map (·.1), List.pairwise_map.2 m.sorted⟩

def values (m : SortedMap κ ν) : List ν := m.entries.map (·.2)

/-- Puts an entry at its place in a list of entries with increasing keys, in place of the entry
that has its key. -/
def place (k : κ) (v : ν) : List (κ × ν) → List (κ × ν)
  | [] => [(k, v)]
  | e :: l => match compare k e.1 with
    | .lt => (k, v) :: e :: l
    | .eq => (k, v) :: l
    | .gt => e :: place k v l

theorem map_fst_place [LawfulEqOrd κ] (k : κ) (v : ν) (l : List (κ × ν)) :
    (place k v l).map (·.1) = SortedSet.place k (l.map (·.1)) := by
  induction l with
  | nil => rfl
  | cons e l ih =>
    rw [place, List.map_cons, SortedSet.place]
    cases h : compare k e.1 with
    | lt => rfl
    | eq => simp [LawfulEqCmp.eq_of_compare h]
    | gt => simp [ih]

theorem place_sorted [TransOrd κ] [LawfulEqOrd κ] (k : κ) (v : ν) {l : List (κ × ν)}
    (h : l.Pairwise (fun a b => compare a.1 b.1 = .lt)) :
    (place k v l).Pairwise (fun a b => compare a.1 b.1 = .lt) := by
  have h' := SortedSet.place_sorted k (List.pairwise_map.2 h : (l.map (·.1)).Pairwise _)
  rw [← map_fst_place k v] at h'
  exact List.pairwise_map.1 h'

theorem lookup_place [LawfulEqOrd κ] [DecidableEq κ] (k j : κ) (v : ν) {l : List (κ × ν)}
    (h : l.Pairwise (fun a b => compare a.1 b.1 = .lt)) :
    (place k v l).lookup j = if j = k then some v else l.lookup j := by
  induction l with
  | nil => grind [place]
  | cons e l ih =>
    obtain ⟨he, hl⟩ := List.pairwise_cons.1 h
    rw [place]
    split
    · grind
    · rename_i hke
      have := LawfulEqCmp.eq_of_compare hke
      grind
    · rename_i hke
      have hne : k ≠ e.1 := by
        rintro rfl
        simp at hke
      have := ih hl
      grind

theorem lookup_of_mem [ReflOrd κ] [DecidableEq κ] {k : κ} {v : ν} {l : List (κ × ν)}
    (h : l.Pairwise (fun a b => compare a.1 b.1 = .lt)) (hm : (k, v) ∈ l) :
    l.lookup k = some v := by
  induction l with
  | nil => simp at hm
  | cons e l ih =>
    obtain ⟨he, hl⟩ := List.pairwise_cons.1 h
    rcases List.mem_cons.1 hm with rfl | hml
    · simp
    · have hlt := he (k, v) hml
      have hne : k ≠ e.1 := by
        rintro rfl
        simp [ReflCmp.compare_self] at hlt
      rw [List.lookup_cons, beq_false_of_ne hne]
      exact ih hl hml

omit [Ord κ] in
theorem mem_of_lookup [DecidableEq κ] {k : κ} {v : ν} {l : List (κ × ν)}
    (h : l.lookup k = some v) : (k, v) ∈ l := by
  induction l with
  | nil => simp at h
  | cons e l ih =>
    by_cases hk : k = e.1
    · rw [List.lookup_cons, beq_iff_eq.2 hk] at h
      obtain rfl : e.2 = v := Option.some.inj h
      rw [hk]
      exact List.mem_cons_self
    · rw [List.lookup_cons, beq_false_of_ne hk] at h
      exact List.mem_cons_of_mem _ (ih h)

theorem mem_place_self (k : κ) (v : ν) (l : List (κ × ν)) : (k, v) ∈ place k v l := by
  induction l with
  | nil => exact List.mem_cons_self
  | cons e l ih =>
    rw [place]
    split
    · exact List.mem_cons_self
    · exact List.mem_cons_self
    · exact List.mem_cons_of_mem _ ih

theorem mem_of_mem_place {k : κ} {v : ν} {l : List (κ × ν)} {e : κ × ν} (h : e ∈ place k v l) :
    e = (k, v) ∨ e ∈ l := by
  induction l with
  | nil => exact .inl (List.mem_singleton.1 h)
  | cons f l ih =>
    rw [place] at h
    split at h
    · exact List.mem_cons.1 h
    · rcases List.mem_cons.1 h with h | h
      · exact .inl h
      · exact .inr (List.mem_cons_of_mem _ h)
    · rcases List.mem_cons.1 h with rfl | h
      · exact .inr List.mem_cons_self
      · exact (ih h).imp_right (List.mem_cons_of_mem _)

theorem exists_place_eq [TransOrd κ] [DecidableEq κ] {k : κ} {v : ν} {l : List (κ × ν)}
    (h : l.Pairwise (fun a b => compare a.1 b.1 = .lt)) (hk : l.lookup k = some v) :
    ∃ l₁ l₂, l = l₁ ++ (k, v) :: l₂ ∧ ∀ w, place k w l = l₁ ++ (k, w) :: l₂ := by
  induction l with
  | nil => simp at hk
  | cons e l ih =>
    obtain ⟨j, u⟩ := e
    obtain ⟨he, hl⟩ := List.pairwise_cons.1 h
    by_cases hkj : k = j
    · subst hkj
      obtain rfl : u = v := by simpa using hk
      refine ⟨[], l, rfl, fun w => ?_⟩
      simp [place]
    · rw [List.lookup_cons, beq_false_of_ne hkj] at hk
      obtain ⟨l₁, l₂, rfl, hplace⟩ := ih hl hk
      have hgt : compare k j = .gt := OrientedCmp.gt_of_lt (he (k, v) (by simp))
      refine ⟨(j, u) :: l₁, l₂, rfl, fun w => ?_⟩
      simp [place, hgt, hplace]

variable [TransOrd κ] [LawfulEqOrd κ]

def insert (m : SortedMap κ ν) (k : κ) (v : ν) : SortedMap κ ν :=
  ⟨place k v m.entries, place_sorted k v m.sorted⟩

/-- The map with the given entries; of two entries with one key the later counts. -/
def ofList (l : List (κ × ν)) : SortedMap κ ν := l.foldl (fun m e => m.insert e.1 e.2) ∅

omit [LawfulEqOrd κ] in
theorem place_of_forall_lt {k : κ} {l : List (κ × ν)} (v : ν)
    (h : ∀ e ∈ l, compare e.1 k = .lt) : place k v l = l ++ [(k, v)] := by
  induction l with
  | nil => rfl
  | cons e l ih =>
    have he : compare k e.1 = .gt := OrientedCmp.gt_of_lt (h e List.mem_cons_self)
    rw [place, he]
    exact congrArg (e :: ·) (ih fun x hx => h x (List.mem_cons_of_mem _ hx))

theorem entries_foldl_insert (l : List (κ × ν)) {m : SortedMap κ ν}
    (h : (m.entries ++ l).Pairwise (fun a b => compare a.1 b.1 = .lt)) :
    (l.foldl (fun m e => m.insert e.1 e.2) m).entries = m.entries ++ l := by
  induction l generalizing m with
  | nil => simp
  | cons e l ih =>
    have he : (m.insert e.1 e.2).entries = m.entries ++ [e] :=
      place_of_forall_lt e.2 fun x hx =>
        (List.pairwise_append.1 h).2.2 x hx e List.mem_cons_self
    rw [List.foldl_cons, ih (by rw [he]; simpa using h), he]
    simp

theorem ofList_entries (m : SortedMap κ ν) : ofList m.entries = m :=
  eq_of_entries (entries_foldl_insert m.entries (show ([] ++ m.entries).Pairwise _ from m.sorted))

@[simp]
theorem get?_insert [DecidableEq κ] (m : SortedMap κ ν) (k j : κ) (v : ν) :
    (m.insert k v).get? j = if j = k then some v else m.get? j :=
  lookup_place k j v m.sorted

@[simp]
theorem mem_keys_insert (m : SortedMap κ ν) (k j : κ) (v : ν) :
    j ∈ (m.insert k v).keys ↔ j = k ∨ j ∈ m.keys := by
  show j ∈ (place k v m.entries).map (·.1) ↔ _
  rw [map_fst_place]
  exact SortedSet.mem_place

end SortedMap

end SpiderDiagrams
