namespace SpiderDiagrams

/-- A queue: the items that leave next, and the latest arrivals with the last of them first. -/
structure Queue (α : Type) where
  front : List α
  back : List α

namespace Queue

variable {α : Type}

def toList (q : Queue α) : List α := q.front ++ q.back.reverse

def push (q : Queue α) (a : α) : Queue α := { q with back := a :: q.back }

def pop? (q : Queue α) : Option (α × Queue α) :=
  match q.front with
  | a :: front => some (a, { q with front })
  | [] => match q.back.reverse with
    | a :: front => some (a, ⟨front, []⟩)
    | [] => none

@[simp]
theorem toList_push (q : Queue α) (a : α) : (q.push a).toList = q.toList ++ [a] := by
  simp [toList, push]

theorem pop?_eq_none {q : Queue α} (h : q.pop? = none) : q.toList = [] := by
  rw [pop?] at h
  grind [toList]

theorem pop?_eq_some {q r : Queue α} {a : α} (h : q.pop? = some (a, r)) :
    q.toList = a :: r.toList := by
  rw [pop?] at h
  grind [toList]

end Queue

/-- Queues by increasing rank, and the number of items in them. -/
structure Frontier (α : Type) where
  queues : List (Nat × Queue α)
  size : Nat
  sorted : queues.Pairwise (·.1 < ·.1)
  size_eq : size = (queues.flatMap (·.2.toList)).length

namespace Frontier

variable {α : Type}

def toList (f : Frontier α) : List (Nat × α) :=
  f.queues.flatMap fun q => q.2.toList.map (q.1, ·)

def empty : Frontier α := ⟨[], 0, .nil, rfl⟩

def place (rank : Nat) (a : α) : List (Nat × Queue α) → List (Nat × Queue α)
  | [] => [(rank, ⟨[a], []⟩)]
  | (r, q) :: qs =>
    if rank < r then (rank, ⟨[a], []⟩) :: (r, q) :: qs
    else if rank = r then (r, q.push a) :: qs
    else (r, q) :: place rank a qs

theorem mem_place {rank : Nat} {a : α} {qs : List (Nat × Queue α)} {r : Nat × Queue α}
    (h : r ∈ place rank a qs) : r.1 = rank ∨ ∃ q ∈ qs, q.1 = r.1 := by
  induction qs with
  | nil => simp_all [place]
  | cons q qs ih => grind [place]

theorem place_sorted (rank : Nat) (a : α) {qs : List (Nat × Queue α)}
    (h : qs.Pairwise (·.1 < ·.1)) : (place rank a qs).Pairwise (·.1 < ·.1) := by
  induction qs with
  | nil => simp [place]
  | cons q qs ih =>
    obtain ⟨hq, hqs⟩ := List.pairwise_cons.1 h
    rw [place]
    split
    · refine List.pairwise_cons.2 ⟨fun r hr => ?_, h⟩
      rcases List.mem_cons.1 hr with rfl | hr
      · assumption
      · exact Nat.lt_trans ‹_› (hq r hr)
    · split
      · exact List.pairwise_cons.2 ⟨hq, hqs⟩
      · refine List.pairwise_cons.2 ⟨fun r hr => ?_, ih hqs⟩
        rcases mem_place hr with hr | ⟨s, hs, hsr⟩
        · show q.1 < r.1
          omega
        · exact hsr ▸ hq s hs

theorem length_place (rank : Nat) (a : α) (qs : List (Nat × Queue α)) :
    ((place rank a qs).flatMap (·.2.toList)).length = (qs.flatMap (·.2.toList)).length + 1 := by
  induction qs with
  | nil => simp [place, Queue.toList]
  | cons q qs ih =>
    rw [place]
    split
    · simp [Queue.toList]
    · split
      · simp
        omega
      · simp only [List.flatMap_cons, List.length_append, ih]
        omega

def push (f : Frontier α) (rank : Nat) (a : α) : Frontier α where
  queues := place rank a f.queues
  size := f.size + 1
  sorted := place_sorted rank a f.sorted
  size_eq := by rw [length_place, f.size_eq]

def take? : List (Nat × Queue α) → Option (α × List (Nat × Queue α))
  | [] => none
  | (r, q) :: qs =>
    match q.pop? with
    | some (a, q) => some (a, (r, q) :: qs)
    | none => take? qs

theorem take?_eq_some {qs rs : List (Nat × Queue α)} {a : α} (h : take? qs = some (a, rs)) :
    qs.flatMap (·.2.toList) = a :: rs.flatMap (·.2.toList) ∧
      (rs.map (·.1)).Sublist (qs.map (·.1)) := by
  induction qs with
  | nil => simp [take?] at h
  | cons q qs ih =>
    rw [take?] at h
    split at h
    · rename_i b q' hq
      obtain ⟨rfl, rfl⟩ := Prod.mk.inj (Option.some.inj h)
      refine ⟨?_, by simp⟩
      simp [Queue.pop?_eq_some hq]
    · rename_i hq
      obtain ⟨h₁, h₂⟩ := ih h
      refine ⟨?_, ?_⟩
      · simp [Queue.pop?_eq_none hq, h₁]
      · exact h₂.trans (by simp)

def pop? (f : Frontier α) : Option (α × Frontier α) :=
  match h : take? f.queues with
  | none => none
  | some (a, qs) => some (a, {
      queues := qs
      size := f.size - 1
      sorted := List.pairwise_map.1 (List.Pairwise.sublist (take?_eq_some h).2 (List.pairwise_map.2 f.sorted))
      size_eq := by rw [f.size_eq, (take?_eq_some h).1]; rfl })

end Frontier

end SpiderDiagrams
