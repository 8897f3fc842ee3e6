import SpiderDiagrams.Proofs.Preservation
import SpiderDiagrams.Proofs.WellFormed

/-!
A weight that only the introduction of double negations raises. Splitting a habitat makes a diagram
larger, but it shares out the ways to place each spider in one zone of its habitat, so a primary
diagram weighs as much as it has such ways; swapping operands leaves the weight as it is.
-/

namespace SpiderDiagrams

namespace Primary

variable {p q : Primary} {s : String} {habitat region : Region}

def choices (l : List (String × Region)) : Nat := l.foldr (fun e n => e.2.size * n) 1

/-- The number of ways to place each spider in a zone of its habitat. -/
def placements (p : Primary) : Nat := choices p.habitats.entries

theorem choices_cons (e : String × Region) (l : List (String × Region)) :
    choices (e :: l) = e.2.size * choices l := rfl

theorem choices_append (l m : List (String × Region)) :
    choices (l ++ m) = choices l * choices m := by
  induction l with
  | nil => exact (Nat.one_mul _).symm
  | cons e l ih => rw [List.cons_append, choices_cons, choices_cons, ih, Nat.mul_assoc]

theorem choices_pos {l : List (String × Region)} (h : ∀ e ∈ l, 0 < e.2.size) : 0 < choices l := by
  induction l with
  | nil => exact Nat.one_pos
  | cons e l ih =>
      obtain ⟨he, hl⟩ := List.forall_mem_cons.1 h
      exact Nat.mul_pos he (ih hl)

theorem exists_placements (hp : p.habitat? s = some habitat) :
    ∃ n, p.placements = habitat.size * n ∧
      ∀ q region, p.withHabitat s region = .ok q → q.placements = region.size * n := by
  obtain ⟨l₁, l₂, hl, hplace⟩ := SortedMap.exists_place_eq p.habitats.sorted hp
  have hsplit : ∀ r, choices (l₁ ++ (s, r) :: l₂) = r.size * (choices l₁ * choices l₂) := by
    intro r
    rw [choices_append, choices_cons, Nat.mul_left_comm]
  refine ⟨choices l₁ * choices l₂, ?_, ?_⟩
  · rw [placements, hl, hsplit]
  · intro q region hq
    obtain ⟨_, rfl⟩ := of_withHabitat hq
    show choices (SortedMap.place s region p.habitats.entries) = _
    rw [hplace, hsplit]

theorem placements_split {inside outside : Primary} (hp : p.habitat? s = some habitat)
    (hr : ∀ z ∈ region, z ∈ habitat) (hi : p.withHabitat s region = .ok inside)
    (ho : p.withHabitat s (habitat.diff region) = .ok outside) :
    inside.placements + outside.placements = p.placements := by
  obtain ⟨n, hn, hq⟩ := exists_placements hp
  rw [hq inside region hi, hq outside _ ho, hn, ← Nat.add_mul, SortedSet.size_add_size_diff hr]

theorem Valid.habitat_size_pos (h : p.Valid) {e : String × Region} (he : e ∈ p.habitats.entries) :
    0 < e.2.size := by
  have hs : e.1 ∈ p.spiders := List.mem_map_of_mem he
  have hp : p.habitat? e.1 = some e.2 := SortedMap.lookup_of_mem p.habitats.sorted he
  have hf := (valid_iff.1 h).1 e.1 hs
  rw [spiderFault?, orElse_eq_none_iff, hp] at hf
  apply List.length_pos_iff.2
  intro hempty
  simp [SortedSet.isEmpty, hempty] at hf

theorem Valid.placements_pos (h : p.Valid) : 0 < p.placements :=
  choices_pos fun _ he => h.habitat_size_pos he

end Primary

namespace Diagram

variable {d d' e e' : Diagram} {i : Nat}

def weight : Diagram → Nat
  | null => 1
  | primary p => p.placements
  | negation d => d.weight + 1
  | binary _ l r => l.weight + r.weight

theorem weight_pos (hd : d.All Primary.Valid) : 0 < d.weight := by
  induction d with
  | null => exact Nat.one_pos
  | primary p => exact Primary.Valid.placements_pos hd
  | negation d ih => exact Nat.succ_pos _
  | binary c l r ihl ihr => exact Nat.add_pos_left (ihl hd.1) _

theorem weight_le_of_replaceAt? (hs : d.sub? i = some e) (hr : d.replaceAt? i e' = some d')
    (he : e'.weight ≤ e.weight) : d'.weight ≤ d.weight := by
  apply replaceAt?_induction (P := fun _ d d' => d'.weight ≤ d.weight) hs hr he
  · intro i d d' ih
    exact Nat.succ_le_succ ih
  · intro i c l l' r _ ih
    exact Nat.add_le_add_right ih _
  · intro i c l r r' ih
    exact Nat.add_le_add_left ih _

end Diagram

namespace Goals

variable {g h : Goals} {i : Nat} {d e e' : Diagram} {t : Target}

def weight (g : Goals) : Nat := g.foldr (·.weight + ·) 0

theorem weight_append (g h : Goals) : weight (g ++ h) = g.weight + h.weight := by
  induction g with
  | nil => exact (Nat.zero_add _).symm
  | cons d g ih =>
      show d.weight + weight (g ++ h) = d.weight + weight g + weight h
      rw [ih, Nat.add_assoc]

theorem weight_dischargeTrivial_le (g : Goals) : g.dischargeTrivial.weight ≤ g.weight := by
  induction g with
  | nil => exact Nat.le_refl 0
  | cons d g ih =>
      rw [dischargeTrivial, List.filter_cons]
      split
      · exact Nat.add_le_add_left ih d.weight
      · exact Nat.le_trans ih (Nat.le_add_left _ _)

theorem length_le_weight (hg : g.All Primary.Valid) : g.length ≤ g.weight := by
  induction g with
  | nil => exact Nat.le_refl 0
  | cons d g ih =>
      obtain ⟨hd, hg⟩ := List.forall_mem_cons.1 hg
      have hpos := Diagram.weight_pos hd
      have hlength := ih hg
      show g.length + 1 ≤ d.weight + weight g
      omega

theorem weight_le_of_replaceSubgoal? {ds : List Diagram} (hd : g[i]? = some d)
    (hr : g.replaceSubgoal? i ds = some h) (hw : weight ds ≤ d.weight) : h.weight ≤ g.weight := by
  obtain ⟨hi, rfl⟩ := List.getElem?_eq_some_iff.1 hd
  have hdrop : weight (g.drop i) = g[i].weight + weight (g.drop (i + 1)) := by
    rw [List.drop_eq_getElem_cons hi]
    rfl
  have hsplit : g.weight = weight (g.take i) + weight (g.drop i) := by
    rw [← weight_append, List.take_append_drop]
  have hle := weight_dischargeTrivial_le ds
  rw [eq_of_replaceSubgoal? hr, weight_append, weight_append]
  omega

theorem weight_le_of_rewritten (hr : g.Rewritten h t e e') (he : e'.weight ≤ e.weight) :
    h.weight ≤ g.weight := by
  obtain ⟨d, d', hd, hs, hd', hh⟩ := hr
  exact weight_le_of_replaceSubgoal? hd hh (Diagram.weight_le_of_replaceAt? hs hd' he)

end Goals

namespace Rule

variable {g h : Goals} {rule : Rule} {a : Argument} {e e' : Diagram}

theorem weight_le_of_replaces (hrule : rule ≠ .doubleNegationIntroduction)
    (hr : Replaces rule e e') (he : e.All Primary.Valid) : e'.weight ≤ e.weight := by
  cases hr with
  | drop d => exact Nat.le_add_right _ 2
  | wrap => exact absurd rfl hrule
  | swap hc l r => exact Nat.le_of_eq (Nat.add_comm _ _)
  | collapse => exact Nat.le_add_right _ _
  | close => exact Diagram.weight_pos he

theorem weight_eq_of_splitHabitat {spider : String} {region : Region}
    (hs : splitHabitat spider region e = .ok e') : e'.weight = e.weight := by
  obtain ⟨p, habitat, inside, outside, rfl, hp, hr, hi, ho, rfl⟩ := of_splitHabitat hs
  exact Primary.placements_split hp hr hi ho

theorem weight_le_of_apply (hrule : rule ≠ .doubleNegationIntroduction)
    (ha : rule.apply a g = .ok h) (hg : g.All Primary.Valid) : h.weight ≤ g.weight := by
  cases applies_of_apply ha with
  | @split t l r _ _ hd hr => exact Goals.weight_le_of_replaceSubgoal? hd hr (Nat.le_refl _)
  | eliminate _ he hr =>
      obtain ⟨l, r, rfl, rfl | rfl⟩ := of_keepOperand he
      · exact Goals.weight_le_of_rewritten hr (Nat.le_add_right _ _)
      · exact Goals.weight_le_of_rewritten hr (Nat.le_add_left _ _)
  | splitSpiders he hr =>
      exact Goals.weight_le_of_rewritten hr (Nat.le_of_eq (weight_eq_of_splitHabitat he))
  | replace hf he hr =>
      apply Goals.weight_le_of_rewritten hr
      exact weight_le_of_replaces hrule (replaces_of_replacement? hf he) (hg.of_target hr)

end Rule

end SpiderDiagrams
