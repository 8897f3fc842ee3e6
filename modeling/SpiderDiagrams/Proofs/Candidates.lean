import Mathlib.Data.List.Nodup
import SpiderDiagrams.Proofs.Derivation
import SpiderDiagrams.Proofs.Frame

namespace SpiderDiagrams

variable {g h : Goals} {rules : List Rule} {rule : Rule} {a : Argument} {i n : Nat}
  {d e : Diagram} {detail : Detail}

namespace Rule

/-- The rule can be applied to a sub-diagram with that number, as the detail says. -/
inductive Admits : Rule → Nat → Diagram → Detail → Prop
  | left (n : Nat) (l r : Diagram) :
      Admits .conjunctionElimination n (.binary .conjunction l r) (.operand (n + 1))
  | right (n : Nat) (l r : Diagram) :
      Admits .conjunctionElimination n (.binary .conjunction l r) (.operand (n + (l.size + 1)))
  | split (l r : Diagram) : Admits .splitConjunction 0 (.binary .conjunction l r) .none
  | habitat (n : Nat) {p : Primary} {spider : String} {region habitat : Region}
      (hs : p.habitat? spider = some habitat) (hr : ProperPart region habitat) :
      Admits .splitSpiders n (.primary p) (.spider spider region)
  | replace (n : Nat) {rule : Rule} {f : Diagram → Except Obstacle Diagram} {e e' : Diagram}
      (hf : rule.replacement? = some f) (he : f e = .ok e') : Admits rule n e .none

/-- The argument stands for a place in the goals, which has the property. -/
def AtPlace (rule : Rule) (P : Nat → Diagram → Detail → Prop) (g : Goals) (a : Argument) : Prop :=
  ∃ i d n e detail, g[i]? = some d ∧ d.sub? n = some e ∧ P n e detail ∧
    Candidate.argument ⟨rule, n, detail⟩ i = a

theorem keepOperand_of_distance {l r : Diagram} {k : Nat} (hk : k = 1 ∨ k = l.size + 1) :
    ∃ e', keepOperand k (.binary .conjunction l r) = .ok e' := by
  by_cases h : k = 1
  · exact ⟨l, if_pos h⟩
  · exact ⟨r, (if_neg h).trans (if_pos (hk.resolve_left h))⟩

theorem distance_of_keepOperand {e' : Diagram} {k : Nat} (hk : keepOperand k e = .ok e') :
    ∃ l r, e = .binary .conjunction l r ∧ (k = 1 ∨ k = l.size + 1) := by
  obtain ⟨l, r, rfl, _⟩ := of_keepOperand hk
  refine ⟨l, r, rfl, ?_⟩
  rw [keepOperand] at hk
  by_contra hne
  rw [not_or] at hne
  rw [if_neg hne.1, if_neg hne.2] at hk
  cases hk

theorem properPart_of_splitHabitat {spider : String} {region : Region} {e' : Diagram}
    (he : splitHabitat spider region e = .ok e') :
    ∃ p habitat, e = .primary p ∧ p.habitat? spider = some habitat ∧
      ProperPart region habitat := by
  obtain ⟨p, habitat, _, _, rfl, hs, _⟩ := of_splitHabitat he
  refine ⟨p, habitat, rfl, hs, ?_⟩
  by_contra hr
  rw [splitHabitat_of_not_properPart hs hr] at he
  cases he

theorem atPlace_of_applies (ha : Applies g rule a h) :
    rule.AtPlace rule.Admits g a := by
  cases ha with
  | @split t l r _ ht hg hr =>
      obtain ⟨i, n⟩ := t
      obtain rfl : n = 0 := ht
      exact ⟨i, _, 0, _, _, hg, Diagram.sub?_zero _, .split l r, rfl⟩
  | @eliminate t kept _ _ _ ht he hr =>
      obtain ⟨i, n⟩ := t
      obtain ⟨j, m⟩ := kept
      obtain rfl : i = j := ht
      obtain ⟨d, _, hd, hs, _⟩ := hr
      obtain ⟨l, r, rfl, hk | hk⟩ := distance_of_keepOperand he
      · obtain rfl : m = n + 1 := by dsimp only at hk; omega
        exact ⟨i, d, n, _, _, hd, hs, .left n l r, rfl⟩
      · obtain rfl : m = n + (l.size + 1) := by dsimp only at hk; omega
        exact ⟨i, d, n, _, _, hd, hs, .right n l r, rfl⟩
  | @splitSpiders t _ _ _ _ _ he hr =>
      obtain ⟨d, _, hd, hs, _⟩ := hr
      obtain ⟨p, habitat, rfl, hp, hpart⟩ := properPart_of_splitHabitat he
      exact ⟨t.subgoal, d, t.occurrence, _, _, hd, hs, .habitat _ hp hpart, rfl⟩
  | @replace _ t _ _ _ _ hf he hr =>
      obtain ⟨d, _, hd, hs, _⟩ := hr
      exact ⟨t.subgoal, d, t.occurrence, _, _, hd, hs, .replace _ hf he, rfl⟩

theorem applies_of_atPlace (hg : ∀ d ∈ g, d.Valid) (ha : rule.AtPlace rule.Admits g a) :
    ∃ h, Applies g rule a h := by
  obtain ⟨i, d, n, e, detail, hd, hs, hadm, rfl⟩ := ha
  have hplace (e' : Diagram) := Goals.exists_rewritten (t := ⟨i, n⟩) hd hs e'
  cases hadm with
  | left n l r =>
      obtain ⟨e', he⟩ := keepOperand_of_distance (l := l) (r := r) (k := n + 1 - n) (by omega)
      obtain ⟨h, hr⟩ := hplace e'
      exact ⟨h, .eliminate rfl he hr⟩
  | right n l r =>
      obtain ⟨e', he⟩ :=
        keepOperand_of_distance (l := l) (r := r) (k := n + (l.size + 1) - n) (by omega)
      obtain ⟨h, hr⟩ := hplace e'
      exact ⟨h, .eliminate rfl he hr⟩
  | split l r =>
      rw [Diagram.sub?_zero] at hs
      cases hs
      obtain ⟨h, hr⟩ := Goals.exists_replaceSubgoal? hd [l, r]
      exact ⟨h, .split rfl hd hr⟩
  | habitat n hp hpart =>
      -- the only rule that builds a primary diagram, so the only one that asks for validity
      have hall := Diagram.all_valid_iff.2 (hg d (List.mem_of_getElem? hd))
      obtain ⟨h, hr⟩ := hplace _
      exact ⟨h, .splitSpiders (splitHabitat_of_properPart (hall.of_sub? hs) hp hpart) hr⟩
  | replace n hf he =>
      obtain ⟨h, hr⟩ := hplace _
      exact ⟨h, .replace hf he hr⟩

theorem exists_apply_iff (hg : ∀ d ∈ g, d.Valid) :
    (∃ h, rule.apply a g = .ok h) ↔ rule.AtPlace rule.Admits g a := by
  constructor
  · rintro ⟨h, ha⟩
    exact atPlace_of_applies (applies_of_apply ha)
  · intro ha
    obtain ⟨h, hh⟩ := applies_of_atPlace hg ha
    exact ⟨h, apply_of_applies hh⟩

section details

variable {f : Diagram → Except Obstacle Diagram} {p : Primary} {region habitat : Region}

theorem admits_iff_of_replacement? (hf : rule.replacement? = some f) :
    Admits rule n e detail ↔ detail = .none ∧ ∃ e', f e = .ok e' := by
  constructor
  · intro h
    cases h with
    | left | right | split | habitat => cases hf
    | @replace _ _ f' _ e' hf' he =>
        obtain rfl : f' = f := Option.some.inj (hf'.symm.trans hf)
        exact ⟨rfl, e', he⟩
  · rintro ⟨rfl, e', he⟩
    exact .replace n hf he

theorem mem_detailsAt_of_replacement? (hf : rule.replacement? = some f)
    (hne : rule ≠ .doubleNegationIntroduction) :
    detail ∈ rule.detailsAt ⟨n, e⟩ ↔ Admits rule n e detail := by
  have hdetails : rule.detailsAt ⟨n, e⟩ = if (f e).isOk then [.none] else [] := by
    cases rule with
    | conjunctionElimination | splitConjunction | splitSpiders => cases hf
    | doubleNegationIntroduction => exact absurd rfl hne
    | doubleNegationElimination | commutativity | idempotency | trivialImplication =>
        cases hf
        rfl
  rw [hdetails, admits_iff_of_replacement? hf]
  cases f e <;> simp [Except.isOk, Except.toBool]

theorem mem_detailsAt_conjunctionElimination :
    detail ∈ conjunctionElimination.detailsAt ⟨n, e⟩ ↔
      Admits .conjunctionElimination n e detail := by
  constructor
  · intro h
    cases e with
    | null | primary | negation => cases h
    | binary c l r =>
        cases c with
        | disjunction | implication | equivalence => cases h
        | conjunction =>
            rcases List.mem_pair.1 h with rfl | rfl
            · exact .left n l r
            · exact .right n l r
  · intro h
    cases h with
    | left => exact List.mem_cons_self
    | right => exact List.mem_cons_of_mem _ List.mem_cons_self
    | replace _ hf => cases hf

theorem mem_detailsAt_splitConjunction :
    detail ∈ splitConjunction.detailsAt ⟨n, e⟩ ↔ Admits .splitConjunction n e detail := by
  constructor
  · intro h
    cases e with
    | null | primary | negation => cases h
    | binary c l r =>
        cases c with
        | disjunction | implication | equivalence => cases h
        | conjunction =>
            have hd : detail ∈ if n = 0 then [Detail.none] else [] := h
            split at hd
            next hn =>
              obtain rfl := List.mem_singleton.1 hd
              rw [hn]
              exact .split l r
            next => cases hd
  · intro h
    cases h with
    | split => exact List.mem_cons_self
    | replace _ hf => cases hf

theorem mem_detailsAt_iff (hintro : rule ≠ .doubleNegationIntroduction)
    (hspiders : rule ≠ .splitSpiders) :
    detail ∈ rule.detailsAt ⟨n, e⟩ ↔ Admits rule n e detail := by
  cases hf : rule.replacement? with
  | some f => exact mem_detailsAt_of_replacement? hf hintro
  | none =>
      cases rule with
      | conjunctionElimination => exact mem_detailsAt_conjunctionElimination
      | splitConjunction => exact mem_detailsAt_splitConjunction
      | splitSpiders => exact absurd rfl hspiders
      | doubleNegationElimination | doubleNegationIntroduction | commutativity | idempotency
      | trivialImplication => cases hf

theorem mem_detailsAt_doubleNegationIntroduction :
    detail ∈ doubleNegationIntroduction.detailsAt ⟨n, e⟩ ↔
      Admits .doubleNegationIntroduction n e detail ∧ e.operands = [] := by
  have hadm : Admits .doubleNegationIntroduction n e detail ↔ detail = .none := by
    rw [admits_iff_of_replacement? rfl]
    exact and_iff_left ⟨_, rfl⟩
  rw [hadm]
  cases e with
  | null | primary => exact List.mem_singleton.trans (and_iff_left rfl).symm
  | negation | binary => exact ⟨nofun, nofun⟩

theorem properPart_of_one_zone :
    ProperPart region habitat ∧ region.size = 1 ↔
      2 ≤ habitat.size ∧ ∃ z ∈ habitat, region = .ofList [z] := by
  constructor
  · rintro ⟨⟨_, hr, hsize⟩, hone⟩
    obtain ⟨z, hz⟩ := List.length_eq_one_iff.1 hone
    have hmem : z ∈ habitat := hr z (SortedSet.mem_toList.1 (hz ▸ List.mem_cons_self))
    have hpos : 0 < habitat.size := List.length_pos_of_mem hmem
    exact ⟨by omega, z, hmem, SortedSet.eq_of_toList hz⟩
  · rintro ⟨htwo, z, hz, rfl⟩
    have hone : (SortedSet.ofList [z]).size = 1 := rfl
    refine ⟨⟨?_, ?_, by omega⟩, hone⟩
    · intro hempty
      exact SortedSet.eq_empty_iff.1 hempty z (SortedSet.mem_ofList.2 List.mem_cons_self)
    · intro y hy
      rw [List.mem_singleton.1 (SortedSet.mem_ofList.1 hy)]
      exact hz

theorem mem_splitDetails :
    detail ∈ splitDetails p ↔ ∃ spider habitat region, p.habitat? spider = some habitat ∧
      ProperPart region habitat ∧ region.size = 1 ∧ detail = .spider spider region := by
  rw [splitDetails, List.mem_flatMap]
  constructor
  · rintro ⟨⟨spider, habitat⟩, hentry, hd⟩
    dsimp only at hd
    split at hd
    next => cases hd
    next hsize =>
      obtain ⟨z, hz, rfl⟩ := List.mem_map.1 hd
      obtain ⟨hr, hone⟩ := properPart_of_one_zone.2 ⟨by omega, z, hz, rfl⟩
      exact ⟨spider, habitat, _, SortedMap.lookup_of_mem p.habitats.sorted hentry, hr, hone, rfl⟩
  · rintro ⟨spider, habitat, region, hs, hr, hone, rfl⟩
    obtain ⟨hsize, z, hz, rfl⟩ := properPart_of_one_zone.1 ⟨hr, hone⟩
    refine ⟨(spider, habitat), SortedMap.mem_of_lookup hs, ?_⟩
    dsimp only
    rw [if_neg (by omega)]
    exact List.mem_map_of_mem hz

theorem mem_detailsAt_splitSpiders :
    detail ∈ splitSpiders.detailsAt ⟨n, e⟩ ↔
      Admits .splitSpiders n e detail ∧
        ∃ spider region, detail = .spider spider region ∧ region.size = 1 := by
  constructor
  · intro h
    cases e with
    | null | negation | binary => cases h
    | primary p =>
        obtain ⟨spider, habitat, region, hs, hr, hone, rfl⟩ := mem_splitDetails.1 h
        exact ⟨.habitat n hs hr, spider, region, rfl, hone⟩
  · rintro ⟨h, spider, region, rfl, hone⟩
    cases h with
    | @habitat _ p _ _ habitat hs hr =>
        exact mem_splitDetails.2 ⟨spider, habitat, region, hs, hr, hone, rfl⟩

end details

theorem mem_candidates {c : Candidate} :
    c ∈ rule.candidates d ↔ c.rule = rule ∧ ∃ e, d.sub? c.target = some e ∧
      c.detail ∈ rule.detailsAt ⟨c.target, e⟩ := by
  rw [candidates, List.mem_flatMap]
  constructor
  · rintro ⟨⟨n, e⟩, ho, hc⟩
    obtain ⟨detail, hd, rfl⟩ := List.mem_map.1 hc
    exact ⟨rfl, e, Diagram.mem_occurrences.1 ho, hd⟩
  · rintro ⟨rfl, e, hs, hd⟩
    exact ⟨⟨c.target, e⟩, Diagram.mem_occurrences.2 hs, List.mem_map.2 ⟨c.detail, hd, rfl⟩⟩

end Rule

theorem Rule.name_injective : Function.Injective Rule.name := by
  intro r s h
  have hr := ofName?_name r
  rw [h, ofName?_name s] at hr
  exact (Option.some.inj hr).symm

theorem Candidate.argument_inj {c c' : Candidate} {j : Nat} (h : c.argument i = c'.argument j) :
    i = j ∧ c.target = c'.target ∧ c.detail = c'.detail := by
  obtain ⟨r, n, x⟩ := c
  obtain ⟨r', n', x'⟩ := c'
  cases x <;> cases x' <;> cases h <;> exact ⟨rfl, rfl, rfl⟩

theorem nodup_eraseDups {α : Type} [DecidableEq α] (l : List α) : l.eraseDups.Nodup := by
  induction hn : l.length using Nat.strongRecOn generalizing l with
  | ind n ih =>
      cases l with
      | nil => exact .nil
      | cons b l =>
          have hlen : (l.filter fun c => !c == b).length < n := by
            have := List.length_filter_le (fun c => !c == b) l
            rw [List.length_cons] at hn
            omega
          rw [List.eraseDups_cons]
          refine List.nodup_cons.2 ⟨?_, ih _ hlen _ rfl⟩
          intro hb
          have := (List.mem_filter.1 (List.mem_eraseDups.1 hb)).2
          simp at this

theorem eraseDups_append_of_subset {α : Type} [DecidableEq α] {l m k : List α}
    (h : ∀ b ∈ m, b ∈ l) : (l ++ m ++ k).eraseDups = (l ++ k).eraseDups := by
  have hm : m.removeAll l = [] := by
    rw [List.removeAll, List.filter_eq_nil_iff]
    intro b hb
    simp [h b hb]
  rw [List.append_assoc, List.eraseDups_append, List.eraseDups_append]
  rw [List.removeAll, List.filter_append, ← List.removeAll, hm]
  rfl

namespace Goals

def applications (rules : List Rule) (g : Goals) : List (String × Argument) :=
  (g.candidates rules).map fun (i, c) => (c.rule.name, c.argument i)

theorem mem_applications :
    (rule.name, a) ∈ g.applications [rule] ↔
      rule.AtPlace (fun n e detail => detail ∈ rule.detailsAt ⟨n, e⟩) g a := by
  rw [applications, List.mem_map]
  constructor
  · rintro ⟨⟨i, c⟩, hc, h⟩
    obtain ⟨d, hd, hr, hcd⟩ := mem_candidates.1 hc
    obtain ⟨_, e, hs, hdetail⟩ := Rule.mem_candidates.1 hcd
    obtain ⟨_, n, detail⟩ := c
    obtain rfl := List.mem_singleton.1 hr
    exact ⟨i, d, n, e, detail, hd, hs, hdetail, (Prod.mk.inj h).2⟩
  · rintro ⟨i, d, n, e, detail, hd, hs, hdetail, rfl⟩
    refine ⟨(i, ⟨rule, n, detail⟩), mem_candidates.2 ⟨d, hd, List.mem_cons_self, ?_⟩, rfl⟩
    exact Rule.mem_candidates.2 ⟨rfl, e, hs, hdetail⟩

theorem nodup_candidates : (g.candidates rules).Nodup := by
  rw [candidates, List.nodup_flatMap]
  constructor
  · intro i _
    apply List.Nodup.map
    · intro c c' h
      exact (Prod.mk.inj h).2
    · rw [candidatesAt]
      split
      · exact nodup_eraseDups _
      · exact .nil
  · apply List.nodup_range.imp
    intro i j hij x hi hj
    obtain ⟨c, _, rfl⟩ := List.mem_map.1 hi
    obtain ⟨c', _, h⟩ := List.mem_map.1 hj
    exact hij (Prod.mk.inj h).1.symm

theorem nodup_applications : (g.applications rules).Nodup := by
  apply List.Nodup.map _ nodup_candidates
  rintro ⟨i, c⟩ ⟨j, c'⟩ h
  obtain ⟨hname, harg⟩ := Prod.mk.inj h
  have hrule := Rule.name_injective hname
  obtain ⟨rfl, htarget, hdetail⟩ := Candidate.argument_inj harg
  obtain ⟨r, n, x⟩ := c
  obtain ⟨r', n', x'⟩ := c'
  cases hrule
  cases htarget
  cases hdetail
  rfl

theorem candidates_append_of_subset {before later after : List Rule}
    (h : ∀ r ∈ later, r ∈ before) :
    g.candidates (before ++ later ++ after) = g.candidates (before ++ after) := by
  have hat (i : Nat) :
      g.candidatesAt (before ++ later ++ after) i = g.candidatesAt (before ++ after) i := by
    rw [candidatesAt, candidatesAt]
    cases g[i]? with
    | none => rfl
    | some d =>
        simp only [List.flatMap_append]
        apply eraseDups_append_of_subset
        intro c hc
        obtain ⟨r, hr, hc⟩ := List.mem_flatMap.1 hc
        exact List.mem_flatMap.2 ⟨r, h r hr, hc⟩
  simp only [candidates, hat]

theorem mem_applications_iff (hg : ∀ d ∈ g, d.Valid) (hintro : rule ≠ .doubleNegationIntroduction)
    (hspiders : rule ≠ .splitSpiders) :
    (rule.name, a) ∈ g.applications [rule] ↔ ∃ h, rule.apply a g = .ok h := by
  rw [mem_applications, Rule.exists_apply_iff hg]
  simp only [Rule.AtPlace, Rule.mem_detailsAt_iff hintro hspiders]

theorem mem_applications_doubleNegationIntroduction (hg : ∀ d ∈ g, d.Valid) :
    (Rule.doubleNegationIntroduction.name, a) ∈ g.applications [.doubleNegationIntroduction] ↔
      (∃ h, Rule.doubleNegationIntroduction.apply a g = .ok h) ∧
        ∃ t d e, a = .single t ∧ g[t.subgoal]? = some d ∧ d.sub? t.occurrence = some e ∧
          e.operands = [] := by
  rw [mem_applications, Rule.exists_apply_iff hg]
  simp only [Rule.AtPlace, Rule.mem_detailsAt_doubleNegationIntroduction]
  constructor
  · rintro ⟨i, d, n, e, detail, hd, hs, ⟨hadm, hleaf⟩, rfl⟩
    obtain ⟨rfl, _⟩ := (Rule.admits_iff_of_replacement? rfl).1 hadm
    exact ⟨⟨i, d, n, e, _, hd, hs, hadm, rfl⟩, ⟨i, n⟩, d, e, rfl, hd, hs, hleaf⟩
  · rintro ⟨⟨i, d, n, e, detail, hd, hs, hadm, harg⟩, t, d', e', rfl, hd', hs', hleaf⟩
    obtain ⟨rfl, _⟩ := (Rule.admits_iff_of_replacement? rfl).1 hadm
    cases harg
    obtain rfl := Option.some.inj (hd.symm.trans hd')
    obtain rfl := Option.some.inj (hs.symm.trans hs')
    exact ⟨i, d, n, e, _, hd, hs, ⟨hadm, hleaf⟩, rfl⟩

theorem mem_applications_splitSpiders (hg : ∀ d ∈ g, d.Valid) :
    (Rule.splitSpiders.name, a) ∈ g.applications [.splitSpiders] ↔
      (∃ h, Rule.splitSpiders.apply a g = .ok h) ∧
        ∃ t spider region, a = .spiderRegion t spider region ∧ region.size = 1 := by
  rw [mem_applications, Rule.exists_apply_iff hg]
  simp only [Rule.AtPlace, Rule.mem_detailsAt_splitSpiders]
  constructor
  · rintro ⟨i, d, n, e, detail, hd, hs, ⟨hadm, spider, region, rfl, hone⟩, rfl⟩
    exact ⟨⟨i, d, n, e, _, hd, hs, hadm, rfl⟩, ⟨i, n⟩, spider, region, rfl, hone⟩
  · rintro ⟨⟨i, d, n, e, detail, hd, hs, hadm, harg⟩, t, spider, region, rfl, hone⟩
    cases hadm with
    | replace _ hf => cases hf
    | habitat _ hp hr =>
        cases harg
        exact ⟨i, d, n, _, _, hd, hs, ⟨.habitat n hp hr, spider, region, rfl, hone⟩, rfl⟩

/-- On valid goals the candidates of a rule are the arguments that it can be applied to, but for
double negations of compound diagrams and habitats split on more than one zone. No application is
listed twice, and rules that are listed again add none. -/
theorem applications_complete (g : Goals) (hg : ∀ d ∈ g, d.Valid) :
    (∀ (rule : Rule) (a : Argument), rule ≠ .doubleNegationIntroduction → rule ≠ .splitSpiders →
      ((rule.name, a) ∈ g.applications [rule] ↔ ∃ h, rule.apply a g = .ok h)) ∧
    (∀ a, (Rule.doubleNegationIntroduction.name, a) ∈
        g.applications [.doubleNegationIntroduction] ↔
      (∃ h, Rule.doubleNegationIntroduction.apply a g = .ok h) ∧
        ∃ t d e, a = .single t ∧ g[t.subgoal]? = some d ∧ d.sub? t.occurrence = some e ∧
          e.operands = []) ∧
    (∀ a, (Rule.splitSpiders.name, a) ∈ g.applications [.splitSpiders] ↔
      (∃ h, Rule.splitSpiders.apply a g = .ok h) ∧
        ∃ t spider region, a = .spiderRegion t spider region ∧ region.size = 1) ∧
    (∀ rules, (g.applications rules).Nodup) ∧
    ∀ before later after, (∀ r ∈ later, r ∈ before) →
      g.candidates (before ++ later ++ after) = g.candidates (before ++ after) :=
  ⟨fun _ _ hintro hspiders => mem_applications_iff hg hintro hspiders,
    fun _ => mem_applications_doubleNegationIntroduction hg,
    fun _ => mem_applications_splitSpiders hg, fun _ => nodup_applications,
    fun _ _ _ => candidates_append_of_subset⟩

/-- A spider in three zones can be split off from two of them, though only splits on one zone are
listed; the conjunction around it can be put under two negations, which is not listed either. -/
theorem applications_complete_habitat :
    let first : Zone := .ofLists ["A"] ["B"]
    let second : Zone := .ofLists ["B"] ["A"]
    let third : Zone := .ofLists ["A", "B"] []
    let p (zones : List Zone) : Diagram := .primary ⟨.ofList [("s", .ofList zones)], ∅⟩
    let d : Diagram := .binary .conjunction (p [first, second, third]) .null
    let g : Goals := [d]
    let split (zones : List Zone) : Argument := .spiderRegion ⟨0, 1⟩ "s" (.ofList zones)
    (∀ d ∈ g, d.Valid) ∧
      (Rule.commutativity.name, .single ⟨0, 0⟩) ∈ g.applications [.commutativity] ∧
      (Rule.doubleNegationIntroduction.name, .single ⟨0, 0⟩) ∉
        g.applications [.doubleNegationIntroduction] ∧
      (Rule.splitSpiders.name, split [first]) ∈ g.applications [.splitSpiders] ∧
      (Rule.splitSpiders.name, split [first, second]) ∉ g.applications [.splitSpiders] ∧
      (∃ h, Rule.splitSpiders.apply (split [first, second]) g = .ok h) ∧
      g.candidates [.commutativity, .splitSpiders, .commutativity] =
        g.candidates [.commutativity, .splitSpiders] := by
  intro first second third p d g split
  have hg : ∀ d ∈ g, d.Valid := by decide +kernel
  have hswap : Rule.commutativity.apply (.single ⟨0, 0⟩) g =
      .ok [.binary .conjunction .null (p [first, second, third])] := by decide +kernel
  have hone : Rule.splitSpiders.apply (split [first]) g =
      .ok [.binary .conjunction (.binary .disjunction (p [first]) (p [second, third])) .null] := by
    decide +kernel
  have htwo : Rule.splitSpiders.apply (split [first, second]) g =
      .ok [.binary .conjunction (.binary .disjunction (p [first, second]) (p [third])) .null] := by
    decide +kernel
  obtain ⟨hrules, hintro, hspiders, _, hrepeat⟩ := applications_complete g hg
  refine ⟨hg, (hrules _ _ (by decide) (by decide)).2 ⟨_, hswap⟩, ?_,
    (hspiders _).2 ⟨⟨_, hone⟩, _, _, _, rfl, rfl⟩, ?_, ⟨_, htwo⟩,
    hrepeat [.commutativity, .splitSpiders] [.commutativity] [] (by decide)⟩
  · intro h
    obtain ⟨_, t, d', e, ht, hd, hs, hleaf⟩ := (hintro _).1 h
    cases ht
    cases hd
    cases hs
    cases hleaf
  · intro h
    obtain ⟨_, t, spider, region, ha, hsize⟩ := (hspiders _).1 h
    cases ha
    exact absurd hsize (by decide +kernel)

end Goals

end SpiderDiagrams
