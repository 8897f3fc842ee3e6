import Mathlib.Data.Set.Finite.Lattice
import Mathlib.Data.Set.Finite.List
import SpiderDiagrams.Proofs.Derivation
import SpiderDiagrams.Proofs.Weight

namespace SpiderDiagrams

theorem finite_lists {α : Type} {T : Set α} (hT : T.Finite) (n : Nat) :
    {l : List α | (∀ a ∈ l, a ∈ T) ∧ l.length ≤ n}.Finite := by
  have := hT.to_subtype
  apply ((List.finite_length_le T n).image (List.map Subtype.val)).subset
  rintro l ⟨hl, hn⟩
  refine ⟨l.attachWith (· ∈ T) hl, ?_, List.attachWith_map_subtype_val _⟩
  simpa using hn

namespace Primary

variable {p q : Primary}

/-- The spiders and the zones of the first diagram are among those of the second, and the shading
is the same. -/
structure Within (q p : Primary) : Prop where
  length : q.habitats.entries.length ≤ p.habitats.entries.length
  entries : ∀ e ∈ q.habitats.entries, e.1 ∈ p.spiders ∧ ∀ z ∈ e.2, z ∈ p.zones
  shaded : q.shaded = p.shaded

theorem Within.refl (p : Primary) : p.Within p :=
  ⟨Nat.le_refl _, fun _ he => ⟨List.mem_map_of_mem he, fun _ hz => mem_zones_of_habitat he hz⟩, rfl⟩

theorem inherited_within (p : Primary) : Inherited (·.Within p) := by
  intro q q' s habitat region hq hs hr hq'
  obtain ⟨_, rfl⟩ := of_withHabitat hq'
  obtain ⟨l₁, l₂, hl, hplace⟩ := SortedMap.exists_place_eq q.habitats.sorted hs
  have hentries : (q.habitats.insert s region).entries = l₁ ++ (s, region) :: l₂ := hplace region
  have hlength := hq.length
  have hmem := hq.entries
  rw [hl] at hlength hmem
  refine ⟨?_, ?_, hq.shaded⟩
  · rw [hentries]
    simpa using hlength
  · intro e he
    rw [hentries, List.mem_append, List.mem_cons] at he
    rcases he with he | rfl | he
    · exact hmem e (by simp [he])
    · obtain ⟨hs', hz⟩ := hmem (s, habitat) (by simp)
      exact ⟨hs', fun z hz' => hz z (hr z hz')⟩
    · exact hmem e (by simp [he])

theorem finite_regions (l : List Zone) : {r : Region | ∀ z ∈ r, z ∈ l}.Finite := by
  refine Set.Finite.of_injOn (f := fun r : Region => {z | z ∈ r}) ?_ ?_ l.finite_toSet.finite_subsets
  · intro r hr
    exact hr
  · intro r _ r' _ h
    exact SortedSet.eq_of_mem_iff fun z => Set.ext_iff.1 h z

theorem finite_within (p : Primary) : {q : Primary | q.Within p}.Finite := by
  have hentries : {e : String × Region | e.1 ∈ p.spiders ∧ ∀ z ∈ e.2, z ∈ p.zones}.Finite :=
    p.spiders.toList.finite_toSet.prod (finite_regions p.zones)
  refine Set.Finite.of_injOn (f := fun q : Primary => q.habitats.entries) ?_ ?_
    (finite_lists hentries p.habitats.entries.length)
  · intro q hq
    exact ⟨hq.entries, hq.length⟩
  · rintro ⟨m, _⟩ hm ⟨m', _⟩ hm' h
    obtain rfl := hm.shaded
    obtain rfl := hm'.shaded
    obtain rfl : m = m' := SortedMap.eq_of_entries h
    rfl

/-- A finite set of valid diagrams that no rule leads out of. -/
structure Confines (T : Set Primary) : Prop where
  finite : T.Finite
  valid : ∀ p ∈ T, p.Valid
  inherited : Inherited (· ∈ T)

theorem confines_empty : Confines ∅ :=
  ⟨Set.finite_empty, fun _ h => h.elim, fun _ _ _ _ _ h => h.elim⟩

theorem confines_within (p : Primary) : Confines {q | q.Valid ∧ q.Within p} where
  finite := (finite_within p).subset fun _ h => h.2
  valid _ h := h.1
  inherited q q' s habitat region h hs hr hq :=
    ⟨inherited_valid q q' s habitat region h.1 hs hr hq,
      inherited_within p q q' s habitat region h.2 hs hr hq⟩

theorem Confines.union {S T : Set Primary} (hS : Confines S) (hT : Confines T) :
    Confines (S ∪ T) := by
  refine ⟨hS.finite.union hT.finite, ?_, ?_⟩
  · rintro p (h | h)
    · exact hS.valid p h
    · exact hT.valid p h
  · rintro p q s habitat region (h | h) hs hr hq
    · exact .inl (hS.inherited p q s habitat region h hs hr hq)
    · exact .inr (hT.inherited p q s habitat region h hs hr hq)

end Primary

open Primary

instance : Fintype Connective :=
  ⟨{.conjunction, .disjunction, .implication, .equivalence}, by intro c; cases c <;> decide⟩

namespace Diagram

theorem exists_confines {d : Diagram} (hd : d.Valid) : ∃ T, Confines T ∧ d.All (· ∈ T) := by
  induction d with
  | null => exact ⟨∅, confines_empty, trivial⟩
  | primary p => exact ⟨_, confines_within p, hd, Within.refl p⟩
  | negation d ih => exact ih hd
  | binary c l r ihl ihr =>
      obtain ⟨S, hS, hl⟩ := ihl hd.1
      obtain ⟨T, hT, hr⟩ := ihr hd.2
      exact ⟨S ∪ T, hS.union hT, hl.imp fun _ => .inl, hr.imp fun _ => .inr⟩

theorem finite_weight_le {T : Set Primary} (hT : Confines T) (n : Nat) :
    {d : Diagram | d.All (· ∈ T) ∧ d.weight ≤ n}.Finite := by
  induction n with
  | zero =>
      apply Set.finite_empty.subset
      rintro d ⟨hd, hw⟩
      have hpos := weight_pos (hd.imp hT.valid)
      omega
  | succ n ih =>
      apply (((Set.finite_singleton null).union (hT.finite.image primary)).union
        ((ih.image negation).union (Set.finite_iUnion fun c => ih.image2 (binary c) ih))).subset
      rintro d ⟨hd, hw⟩
      cases d with
      | null => exact .inl (.inl rfl)
      | primary p => exact .inl (.inr ⟨p, hd, rfl⟩)
      | negation d => exact .inr (.inl ⟨d, ⟨hd, Nat.le_of_succ_le_succ hw⟩, rfl⟩)
      | binary c l r =>
          -- an operand weighs less than the whole, since the other one weighs something
          have hl := weight_pos (hd.1.imp hT.valid)
          have hr := weight_pos (hd.2.imp hT.valid)
          have hlr : l.weight + r.weight ≤ n + 1 := hw
          refine .inr (.inr (Set.mem_iUnion.2 ⟨c, l, ⟨hd.1, ?_⟩, r, ⟨hd.2, ?_⟩, rfl⟩))
          · omega
          · omega

end Diagram

namespace Goals

variable {g h : Goals} {rules : List Rule}

theorem exists_confines (hg : ∀ d ∈ g, d.Valid) : ∃ T, Confines T ∧ g.All (· ∈ T) := by
  induction g with
  | nil => exact ⟨∅, confines_empty, fun d hd => nomatch hd⟩
  | cons d g ih =>
      obtain ⟨hd, hg⟩ := List.forall_mem_cons.1 hg
      obtain ⟨S, hS, hd⟩ := Diagram.exists_confines hd
      obtain ⟨T, hT, hg⟩ := ih hg
      refine ⟨S ∪ T, hS.union hT, List.forall_mem_cons.2 ⟨hd.imp fun _ => .inl, ?_⟩⟩
      exact fun e he => (hg e he).imp fun _ => .inr

theorem weight_le_of_mem {d : Diagram} (hd : d ∈ g) : d.weight ≤ g.weight := by
  induction g with
  | nil => cases hd
  | cons e g ih =>
      rcases List.mem_cons.1 hd with rfl | hd
      · exact Nat.le_add_right _ _
      · exact Nat.le_trans (ih hd) (Nat.le_add_left _ _)

theorem finite_weight_le {T : Set Primary} (hT : Confines T) (n : Nat) :
    {h : Goals | h.All (· ∈ T) ∧ h.weight ≤ n}.Finite := by
  apply (finite_lists (Diagram.finite_weight_le hT n) n).subset
  rintro h ⟨hall, hw⟩
  refine ⟨fun d hd => ⟨hall d hd, Nat.le_trans (weight_le_of_mem hd) hw⟩, ?_⟩
  exact Nat.le_trans (length_le_weight fun d hd => (hall d hd).imp hT.valid) hw

theorem confined_of_derives {T : Set Primary} (hT : Confines T) (hg : g.All (· ∈ T))
    (hrules : .doubleNegationIntroduction ∉ rules) (hd : Derives rules g h) :
    h.All (· ∈ T) ∧ h.weight ≤ g.weight := by
  induction hd with
  | refl => exact ⟨hg, Nat.le_refl _⟩
  | tail _ hstep ih =>
      obtain ⟨hall, hw⟩ := ih
      obtain ⟨i, c, hc, ha⟩ := hstep
      obtain ⟨_, _, hc, _⟩ := mem_candidates.1 hc
      have hrule : c.rule ≠ .doubleNegationIntroduction := fun he => hrules (he ▸ hc)
      refine ⟨Rule.all_of_apply hT.inherited ha hall, ?_⟩
      exact Nat.le_trans
        (Rule.weight_le_of_apply hrule ha fun d hd => (hall d hd).imp hT.valid) hw

/-- Whatever the other rules are, the goals that can be derived are among finitely many. -/
theorem exists_finite_derives (hg : ∀ d ∈ g, d.Valid) :
    ∃ S : Set Goals, S.Finite ∧
      ∀ rules, .doubleNegationIntroduction ∉ rules → ∀ h, Derives rules g h → h ∈ S := by
  obtain ⟨T, hT, hall⟩ := exists_confines hg
  refine ⟨_, finite_weight_le hT g.weight, ?_⟩
  intro rules hrules h hd
  exact confined_of_derives hT hall hrules hd

end Goals

end SpiderDiagrams
