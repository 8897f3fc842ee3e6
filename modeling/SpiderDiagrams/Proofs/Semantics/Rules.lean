import SpiderDiagrams.Proofs.Application
import SpiderDiagrams.Proofs.Semantics.Replacement

universe u

namespace SpiderDiagrams.Interpretation

variable {U : Type u} {I : Interpretation U} {d e e' : Diagram} {g h : Goals} {i : Nat}

theorem hold_iff_of_getElem? (hd : g[i]? = some d) :
    I.Hold g ↔ I.Hold (g.take i) ∧ I.Holds d ∧ I.Hold (g.drop (i + 1)) := by
  obtain ⟨hi, he⟩ := List.getElem?_eq_some_iff.1 hd
  have hg : g = g.take i ++ d :: g.drop (i + 1) := by
    rw [← he, ← List.drop_eq_getElem_cons hi, List.take_append_drop]
  have hsplit : I.Hold (g.take i ++ d :: g.drop (i + 1)) ↔
      I.Hold (g.take i) ∧ I.Holds d ∧ I.Hold (g.drop (i + 1)) := by
    rw [Hold, List.forall_mem_append, List.forall_mem_cons]
    exact Iff.rfl
  rw [← hsplit, ← hg]

theorem hold_replaceSubgoal? {ds : List Diagram} (hr : g.replaceSubgoal? i ds = some h) :
    I.Hold h ↔ I.Hold (g.take i) ∧ I.Hold ds ∧ I.Hold (g.drop (i + 1)) := by
  rw [Goals.eq_of_replaceSubgoal? hr, ← hold_dischargeTrivial (g := ds), Hold, List.append_assoc,
    List.forall_mem_append, List.forall_mem_append]
  exact Iff.rfl

theorem hold_singleton : I.Hold [d] ↔ I.Holds d := List.forall_mem_singleton

theorem hold_iff_of_rewritten {t : Target} (hr : g.Rewritten h t e e')
    (he : I.Holds e' ↔ I.Holds e) : I.Hold h ↔ I.Hold g := by
  obtain ⟨d, d', hd, hs, hd', hh⟩ := hr
  rw [hold_replaceSubgoal? hh, hold_iff_of_getElem? hd, hold_singleton,
    holds_iff_of_replaceAt? hs hd' he]

theorem weakens_of_rewritten {t : Target} (hr : g.Rewritten h t e e') (hd : g[t.subgoal]? = some d)
    (he : I.Holds e → I.Holds e') : Weakens (d.polarity t.occurrence) (I.Hold g) (I.Hold h) := by
  obtain ⟨c, d', hc, hs, hd', hr⟩ := hr
  obtain rfl : c = d := Option.some.inj (hc.symm.trans hd)
  rw [hold_iff_of_getElem? hd, hold_replaceSubgoal? hr, hold_singleton]
  exact weakens_between (weakens_of_replaceAt? hs hd' he) _ _

theorem holds_iff_of_replaces {rule : Rule} (hr : rule.Replaces e e') :
    I.Holds e' ↔ I.Holds e := by
  cases hr with
  | drop d => exact (holds_negation_negation e').symm
  | wrap d => exact holds_negation_negation e
  | swap hc l r => exact Connective.truth_comm hc _ _
  | collapse hc he =>
      rcases hc with rfl | rfl
      · exact ⟨fun h => ⟨h, (holds_iff_of_equivalent he).1 h⟩, fun h => h.1⟩
      · exact ⟨Or.inl, fun h => h.elim id (holds_iff_of_equivalent he).2⟩
  | close he => exact iff_of_true trivial (holds_iff_of_equivalent he).1

theorem region_mono {r r' : Region} (hr : ∀ z ∈ r, z ∈ r') {x : U} (hx : x ∈ I.region r) :
    x ∈ I.region r' := by
  obtain ⟨z, hz, hx⟩ := hx
  exact ⟨z, hr z hz, hx⟩

theorem mem_region_or_diff {r r' : Region} {x : U} (hx : x ∈ I.region r') :
    x ∈ I.region r ∨ x ∈ I.region (r'.diff r) := by
  obtain ⟨z, hz, hx⟩ := hx
  by_cases hr : z ∈ r
  · exact .inl ⟨z, hr, hx⟩
  · exact .inr ⟨z, SortedSet.mem_diff.2 ⟨hz, hr⟩, hx⟩

theorem Choice.transfer {p q : Primary} (c : I.Choice p) (hs : ∀ s, s ∈ q.spiders ↔ s ∈ p.spiders)
    (hz : q.shaded = p.shaded)
    (hh : ∀ s r, q.habitat? s.1 = some r → c.element s ∈ I.region r) : I.Holds (.primary q) := by
  refine ⟨fun s => c.element ⟨s.1, (hs s.1).1 s.2⟩, ?_, ?_, ?_⟩
  · intro a b hab
    have he := congrArg Subtype.val (c.injective hab)
    exact Subtype.ext he
  · intro s r hr
    exact hh ⟨s.1, _⟩ r hr
  · intro z hzq x hx
    obtain ⟨s, rfl⟩ := c.covers z (hz ▸ hzq) x hx
    exact ⟨⟨s.1, (hs s.1).2 s.2⟩, rfl⟩

theorem Choice.move {p : Primary} (c : I.Choice p) {s : String} (hs : s ∈ p.spiders) {r : Region}
    (hr : c.element ⟨s, hs⟩ ∈ I.region r) :
    I.Holds (.primary { p with habitats := p.habitats.insert s r }) := by
  apply c.transfer (Primary.mem_spiders_insert hs r) rfl
  intro j r' hj
  rw [Primary.habitat?_insert] at hj
  by_cases hjs : j.1 = s
  · rw [if_pos hjs] at hj
    cases hj
    have he : j = ⟨s, hs⟩ := Subtype.ext hjs
    rw [he]
    exact hr
  · rw [if_neg hjs] at hj
    exact c.inhabits j r' hj

theorem holds_of_move {p : Primary} {s : String} (hs : s ∈ p.spiders) {r r' : Region}
    (hr' : p.habitat? s = some r') (hr : ∀ z ∈ r, z ∈ r')
    (h : I.Holds (.primary { p with habitats := p.habitats.insert s r })) :
    I.Holds (.primary p) := by
  obtain ⟨c⟩ := h
  apply c.transfer (fun j => (Primary.mem_spiders_insert hs r j).symm) rfl
  intro j q hj
  have hc := c.inhabits j
  rw [Primary.habitat?_insert] at hc
  by_cases hjs : j.1 = s
  · rw [hjs, hr'] at hj
    cases hj
    exact region_mono hr (hc r (if_pos hjs))
  · exact hc q (by rw [if_neg hjs, hj])

theorem holds_splitHabitat {spider : String} {region : Region}
    (he : Rule.splitHabitat spider region e = .ok e') : I.Holds e' ↔ I.Holds e := by
  obtain ⟨p, habitat, inside, outside, rfl, hp, hr, hi, ho, rfl⟩ := Rule.of_splitHabitat he
  obtain ⟨hs, rfl⟩ := Primary.of_withHabitat hi
  obtain ⟨_, rfl⟩ := Primary.of_withHabitat ho
  constructor
  · rintro (h | h)
    · exact holds_of_move hs hp hr h
    · exact holds_of_move hs hp (fun z hz => (SortedSet.mem_diff.1 hz).1) h
  · rintro ⟨c⟩
    have hx := c.inhabits ⟨spider, hs⟩ habitat hp
    exact (mem_region_or_diff hx).imp (c.move hs) (c.move hs)

theorem holds_keepOperand {n : Nat} (he : Rule.keepOperand n e = .ok e') (h : I.Holds e) :
    I.Holds e' := by
  obtain ⟨l, r, rfl, rfl | rfl⟩ := Rule.of_keepOperand he
  · exact h.1
  · exact h.2

theorem hold_iff_of_apply {rule : Rule} {a : Argument} (hr : rule ≠ .conjunctionElimination)
    (ha : rule.apply a g = .ok h) : I.Hold h ↔ I.Hold g := by
  cases Rule.applies_of_apply ha with
  | @split t l r _ ht hg hs =>
      have hlr : I.Hold [l, r] ↔ I.Holds (.binary .conjunction l r) := by
        rw [Hold, List.forall_mem_cons, List.forall_mem_singleton]
        exact Iff.rfl
      rw [hold_replaceSubgoal? hs, hold_iff_of_getElem? hg, hlr]
  | eliminate => exact absurd rfl hr
  | splitSpiders he hh => exact hold_iff_of_rewritten hh (holds_splitHabitat he)
  | replace hf he hh =>
      exact hold_iff_of_rewritten hh (holds_iff_of_replaces (Rule.replaces_of_replacement? hf he))

/-- To eliminate this conjunction loses nothing: it is at a negative place, or the operand that is
kept does not say less. -/
def HarmlessAt (I : Interpretation U) (g : Goals) (t kept : Target) : Prop :=
  ∀ d e e', g[t.subgoal]? = some d → d.sub? t.occurrence = some e →
    Rule.keepOperand (kept.occurrence - t.occurrence) e = .ok e' →
    d.polarity t.occurrence = .negative ∨ (I.Holds e' → I.Holds e)

theorem hold_of_eliminate {a : Argument} (ha : Rule.conjunctionElimination.apply a g = .ok h)
    (hg : ∀ t kept, a = .multiple [t, kept] → I.HarmlessAt g t kept) (hh : I.Hold h) :
    I.Hold g := by
  cases Rule.applies_of_apply ha with
  | @eliminate t kept e e' _ ht he hr =>
      by_cases hw : I.Holds e' → I.Holds e
      · exact (hold_iff_of_rewritten hr ⟨hw, holds_keepOperand he⟩).1 hh
      · have ⟨d, _, hd, hs, _⟩ := hr
        have hweak := weakens_of_rewritten (I := I) hr hd (holds_keepOperand he)
        rw [(hg t kept rfl d e e' hd hs he).resolve_right hw] at hweak
        exact hweak hh
  | replace hf => cases hf

end SpiderDiagrams.Interpretation
