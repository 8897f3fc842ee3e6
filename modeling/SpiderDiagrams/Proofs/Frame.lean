import Mathlib.Logic.Relation
import SpiderDiagrams.Proofs.Preservation
import SpiderDiagrams.Proofs.WellFormed

namespace SpiderDiagrams

variable {g h : Goals} {t : Target} {i : Nat} {d e e' : Diagram} {ds : List Diagram} {rule : Rule}
  {a : Argument} {fault : ConstructionError}

theorem Diagram.all_valid_iff : d.All Primary.Valid ↔ d.Valid := by
  induction d with
  | null | primary => exact Iff.rfl
  | negation d ih => exact ih
  | binary c l r ihl ihr => exact and_congr ihl ihr

namespace Goals

theorem all_valid_iff : g.All Primary.Valid ↔ ∀ d ∈ g, d.Valid :=
  forall₂_congr fun _ _ => Diagram.all_valid_iff

theorem subgoalAt_ne_construction : g.subgoalAt i ≠ .error (.construction fault) := by
  intro hs
  rw [subgoalAt] at hs
  split at hs
  · cases hs
  · split at hs <;> cases hs

theorem replaceSubgoal_ne_construction :
    g.replaceSubgoal i ds ≠ .error (.construction fault) := by
  intro hr
  rw [replaceSubgoal] at hr
  split at hr <;> cases hr

theorem construction_of_modifyAt {f : Diagram → Except RuleError Diagram}
    (hm : g.modifyAt t f = .error (.construction fault)) :
    ∃ d e, g[t.subgoal]? = some d ∧ d.sub? t.occurrence = some e ∧
      f e = .error (.construction fault) := by
  rw [modifyAt] at hm
  cases hd : g.subgoalAt t.subgoal with
  | error =>
      rw [hd] at hm
      cases hm
      exact absurd hd subgoalAt_ne_construction
  | ok d =>
      simp only [hd, bind, Except.bind] at hm
      cases hs : d.sub? t.occurrence with
      | none => simp only [hs] at hm; cases hm
      | some e =>
          simp only [hs] at hm
          cases hf : f e with
          | error =>
              simp only [hf] at hm
              cases hm
              exact ⟨d, e, getElem?_of_subgoalAt hd, hs, hf⟩
          | ok e' =>
              simp only [hf] at hm
              split at hm
              next => cases hm
              next => exact absurd hm replaceSubgoal_ne_construction

/-- The subgoal gives way to at most so many others, none of them trivial. -/
structure Framed (g h : Goals) (i n : Nat) (ds : List Diagram) : Prop where
  inside : i < g.length
  length_le : ds.length ≤ n
  discharged : ∀ d ∈ ds, d.isTrivial = false
  eq : h = g.take i ++ ds ++ g.drop (i + 1)

theorem not_isTrivial_of_mem (hd : d ∈ g.dischargeTrivial) : d.isTrivial = false :=
  Bool.not_eq_true' _ ▸ (List.mem_filter.1 hd).2

theorem framed_of_replaceSubgoal? (hr : g.replaceSubgoal? i ds = some h) :
    g.Framed h i ds.length (dischargeTrivial ds) := by
  have hh := eq_of_replaceSubgoal? hr
  rw [replaceSubgoal?] at hr
  split at hr
  next hi => exact ⟨hi, List.length_filter_le _ _, fun d hd => not_isTrivial_of_mem hd, hh⟩
  next => cases hr

theorem framed_of_rewritten (hr : g.Rewritten h t e e') :
    ∃ ds, g.Framed h t.subgoal 1 ds := by
  obtain ⟨d, d', _, _, _, hh⟩ := hr
  exact ⟨_, framed_of_replaceSubgoal? hh⟩

end Goals

namespace Rule

/-- A non-empty part of a habitat that leaves something of it. -/
def ProperPart (region habitat : Region) : Prop :=
  region ≠ ∅ ∧ (∀ z ∈ region, z ∈ habitat) ∧ region.size ≠ habitat.size

theorem properPart_iff {region habitat : Region} :
    ProperPart region habitat ↔
      ¬(region.isEmpty || !region.subset habitat || region.size == habitat.size) = true := by
  simp only [ProperPart, Bool.or_eq_true, Bool.not_eq_true', not_or, Bool.not_eq_false,
    beq_iff_eq, SortedSet.isEmpty_iff, SortedSet.subset_iff, and_assoc, ne_eq]

theorem ProperPart.rest_ne_empty {region habitat : Region} (hr : ProperPart region habitat) :
    habitat.diff region ≠ ∅ := by
  intro hd
  have hadd := SortedSet.size_add_size_diff hr.2.1
  rw [hd] at hadd
  exact hr.2.2 hadd

section splitHabitat

variable {p : Primary} {spider : String} {region habitat : Region}

theorem splitHabitat_of_properPart (hp : p.Valid) (hs : p.habitat? spider = some habitat)
    (hr : ProperPart region habitat) :
    splitHabitat spider region (.primary p) =
      .ok (.binary .disjunction
        (.primary { p with habitats := p.habitats.insert spider region })
        (.primary { p with habitats := p.habitats.insert spider (habitat.diff region) })) := by
  have hdiff : ∀ z ∈ habitat.diff region, z ∈ habitat := fun z hz => (SortedSet.mem_diff.1 hz).1
  rw [splitHabitat, hs]
  dsimp only
  rw [if_neg (properPart_iff.1 hr), Primary.withHabitat_of_subset hp hs hr.1 hr.2.1,
    Primary.withHabitat_of_subset hp hs hr.rest_ne_empty hdiff]
  rfl

theorem splitHabitat_of_not_properPart (hs : p.habitat? spider = some habitat)
    (hr : ¬ProperPart region habitat) :
    splitHabitat spider region (.primary p) =
      .error (.notApplicable splitSpiders .notProperPart) := by
  rw [properPart_iff, not_not] at hr
  rw [splitHabitat, hs]
  exact if_pos hr

theorem splitHabitat_ne_construction (he : e.Valid) :
    splitHabitat spider region e ≠ .error (.construction fault) := by
  intro h
  cases e with
  | null | negation | binary => cases h
  | primary p =>
      cases hs : p.habitat? spider with
      | none =>
          rw [splitHabitat, hs] at h
          cases h
      | some habitat =>
          by_cases hr : ProperPart region habitat
          · rw [splitHabitat_of_properPart he hs hr] at h
            cases h
          · rw [splitHabitat_of_not_properPart hs hr] at h
            cases h

end splitHabitat

theorem mapError_ne_construction {x : Except Obstacle Diagram} :
    x.mapError (RuleError.notApplicable rule) ≠ .error (.construction fault) := by
  intro h
  cases x <;> cases h

theorem split_ne_construction : split g t ≠ .error (.construction fault) := by
  intro hs
  rw [split] at hs
  cases hd : g.subgoalAt t.subgoal with
  | error =>
      rw [hd] at hs
      cases hs
      exact Goals.subgoalAt_ne_construction hd
  | ok d =>
      simp only [hd, bind, Except.bind] at hs
      split at hs
      next => cases hs
      next =>
        split at hs
        next => exact Goals.replaceSubgoal_ne_construction hs
        next => cases hs

theorem apply_ne_construction (hg : ∀ d ∈ g, d.Valid) :
    rule.apply a g ≠ .error (.construction fault) := by
  intro ha
  unfold apply at ha
  split at ha
  next t kept =>
    rw [eliminate] at ha
    split at ha
    next => cases ha
    next =>
      obtain ⟨d, e, _, _, he⟩ := Goals.construction_of_modifyAt ha
      exact mapError_ne_construction he
  next t => exact split_ne_construction ha
  next t spider region =>
    obtain ⟨d, e, hd, hs, he⟩ := Goals.construction_of_modifyAt ha
    have hall := Diagram.all_valid_iff.2 (hg d (List.mem_of_getElem? hd))
    exact splitHabitat_ne_construction (Diagram.all_valid_iff.1 (hall.of_sub? hs)) he
  next rule t _ =>
    split at ha
    next f hf =>
      obtain ⟨d, e, _, _, he⟩ := Goals.construction_of_modifyAt ha
      exact mapError_ne_construction he
    next => cases ha
  next => cases ha

theorem framed_of_apply (ha : rule.apply a g = .ok h) :
    ∃ i ds, a.subgoal? = some i ∧ g.Framed h i rule.maxSplit ds := by
  cases applies_of_apply ha with
  | split _ _ hr => exact ⟨_, _, rfl, Goals.framed_of_replaceSubgoal? hr⟩
  | eliminate _ _ hr | splitSpiders _ hr =>
      obtain ⟨ds, hds⟩ := Goals.framed_of_rewritten hr
      exact ⟨_, ds, rfl, hds⟩
  | replace hf _ hr =>
      obtain ⟨ds, hds⟩ := Goals.framed_of_rewritten hr
      have hone : 1 ≤ rule.maxSplit := by cases rule <;> decide
      exact ⟨_, ds, rfl, { hds with length_le := Nat.le_trans hds.length_le hone }⟩

end Rule

namespace Goals

theorem Framed.mem {n : Nat} (hf : g.Framed h i n ds) (hd : d ∈ ds) : d ∈ h := by
  rw [hf.eq]
  exact List.mem_append_left _ (List.mem_append_right _ hd)

theorem Framed.not_isTrivial {n : Nat} (hf : g.Framed h i n ds)
    (hg : ∀ d ∈ g, d.isTrivial = false) : ∀ d ∈ h, d.isTrivial = false := by
  intro d hd
  rw [hf.eq, List.mem_append, List.mem_append] at hd
  rcases hd with (hd | hd) | hd
  · exact hg d (List.mem_of_mem_take hd)
  · exact hf.discharged d hd
  · exact hg d (List.mem_of_mem_drop hd)

def Leads (g h : Goals) : Prop := ∃ (rule : Rule) (a : Argument), rule.apply a g = .ok h

theorem valid_of_apply (hg : ∀ d ∈ g, d.Valid) (ha : rule.apply a g = .ok h) :
    ∀ d ∈ h, d.Valid :=
  all_valid_iff.1 (Rule.all_of_apply Primary.inherited_valid ha (all_valid_iff.2 hg))

theorem valid_and_not_isTrivial_of_run (hg : ∀ d ∈ g, d.Valid)
    (hr : Relation.ReflTransGen Leads g.dischargeTrivial h) :
    (∀ d ∈ h, d.Valid) ∧ ∀ d ∈ h, d.isTrivial = false := by
  induction hr with
  | refl =>
      exact ⟨fun d hd => hg d (List.mem_filter.1 hd).1, fun d hd => not_isTrivial_of_mem hd⟩
  | tail _ hs ih =>
      obtain ⟨rule, a, ha⟩ := hs
      obtain ⟨i, ds, _, hf⟩ := Rule.framed_of_apply ha
      exact ⟨valid_of_apply ih.1 ha, hf.not_isTrivial ih.2⟩

/-- On valid goals no rule builds an invalid diagram. An application changes only the subgoal that
its argument names, and every run keeps the goals valid and free of trivial ones. -/
theorem apply_within_frame (g : Goals) (hg : ∀ d ∈ g, d.Valid) :
    (∀ (rule : Rule) (a : Argument),
      (∀ fault, rule.apply a g ≠ .error (.construction fault)) ∧
      ∀ h, rule.apply a g = .ok h → ∃ i ds, a.subgoal? = some i ∧ i < g.length ∧
        ds.length ≤ rule.maxSplit ∧ (∀ d ∈ ds, d.Valid ∧ d.isTrivial = false) ∧
        h = g.take i ++ ds ++ g.drop (i + 1)) ∧
    ∀ h, Relation.ReflTransGen Leads g.dischargeTrivial h →
      ∀ d ∈ h, d.Valid ∧ d.isTrivial = false := by
  refine ⟨fun rule a => ⟨fun fault => Rule.apply_ne_construction hg, ?_⟩, ?_⟩
  · intro h ha
    obtain ⟨i, ds, hi, hf⟩ := Rule.framed_of_apply ha
    have hds : ∀ d ∈ ds, d.Valid ∧ d.isTrivial = false :=
      fun d hd => ⟨valid_of_apply hg ha d (hf.mem hd), hf.discharged d hd⟩
    exact ⟨i, ds, hi, hf.inside, hf.length_le, hds, hf.eq⟩
  · intro h hr d hd
    obtain ⟨hv, ht⟩ := valid_and_not_isTrivial_of_run hg hr
    exact ⟨hv d hd, ht d hd⟩

theorem apply_within_frame_split :
    let p (zones : List Zone) : Diagram := .primary ⟨.ofList [("s", .ofList zones)], ∅⟩
    let inside : Zone := .ofLists ["A"] []
    let outside : Zone := .ofLists [] ["A"]
    let rest : Diagram := .negation .null
    let g : Goals := [rest, .binary .conjunction (p [inside, outside]) .null]
    let g' : Goals := [rest, p [inside, outside]]
    let h : Goals := [rest, .binary .disjunction (p [inside]) (p [outside])]
    (∀ d ∈ g, d.Valid) ∧ Rule.splitConjunction.apply (.single ⟨1, 0⟩) g = .ok g' ∧
      (∃ i ds, some 1 = some i ∧ i < g.length ∧ ds.length ≤ 2 ∧
        (∀ d ∈ ds, d.Valid ∧ d.isTrivial = false) ∧ g' = g.take i ++ ds ++ g.drop (i + 1)) ∧
      Relation.ReflTransGen Leads g.dischargeTrivial h ∧
      ∀ d ∈ h, d.Valid ∧ d.isTrivial = false := by
  intro p inside outside rest g g' h
  have hg : ∀ d ∈ g, d.Valid := by decide +kernel
  have hsplit : Rule.splitConjunction.apply (.single ⟨1, 0⟩) g = .ok g' := by decide +kernel
  have hspiders : Leads g' h :=
    ⟨.splitSpiders, .spiderRegion ⟨1, 0⟩ "s" (.ofList [inside]), by decide +kernel⟩
  have hrun : Relation.ReflTransGen Leads g.dischargeTrivial h :=
    .tail (.single ⟨_, _, hsplit⟩) hspiders
  obtain ⟨happly, hruns⟩ := apply_within_frame g hg
  exact ⟨hg, hsplit, (happly _ _).2 g' hsplit, hrun, hruns h hrun⟩

end Goals

end SpiderDiagrams
