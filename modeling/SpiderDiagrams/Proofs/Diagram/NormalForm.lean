import SpiderDiagrams.Diagram.Normal
import SpiderDiagrams.Proofs.Diagram.RoundTrip

namespace SpiderDiagrams.Diagram

variable {a b d e l r : Diagram} {c : Connective}

/-- The least congruence on valid diagrams in which a primary diagram without spiders and shading is
null, double negations cancel, and conjunction, disjunction and equivalence commute. -/
inductive Congruent : Diagram → Diagram → Prop
  | refl {d : Diagram} (hd : d.Valid) : Congruent d d
  | symm {a b : Diagram} (h : Congruent a b) : Congruent b a
  | trans {a b d : Diagram} (h : Congruent a b) (h' : Congruent b d) : Congruent a d
  | negation {a b : Diagram} (h : Congruent a b) : Congruent (.negation a) (.negation b)
  | binary (c : Connective) {a a' b b' : Diagram} (ha : Congruent a a') (hb : Congruent b b') :
      Congruent (.binary c a b) (.binary c a' b')
  | empty {p : Primary} (hp : p.Valid) (hs : p.spiders = ∅) (hz : p.shaded = ∅) :
      Congruent (.primary p) .null
  | cancel {d : Diagram} (hd : d.Valid) : Congruent (.negation (.negation d)) d
  | swap {c : Connective} {l r : Diagram} (hc : c ≠ .implication) (hl : l.Valid) (hr : r.Valid) :
      Congruent (.binary c l r) (.binary c r l)

theorem eq_of_text_eq (hd : d.Valid) (he : e.Valid) (h : d.text = e.text) : d = e := by
  have hr := read_text hd
  rw [h, read_text he] at hr
  exact (Except.ok.inj hr).symm

theorem normalize_negation_of_eq (h : d.normalize = .negation e) :
    (negation d).normalize = e := by
  rw [normalize, h]

theorem normalize_negation_of_ne (h : ∀ e, d.normalize ≠ .negation e) :
    (negation d).normalize = .negation d.normalize := by
  rw [normalize]
  split
  next e he => exact absurd he (h e)
  next => rfl

theorem normalize_ne_negation_negation (d e : Diagram) :
    d.normalize ≠ .negation (.negation e) := by
  induction d generalizing e with
  | null => exact nofun
  | primary p =>
      rw [normalize]
      split <;> exact nofun
  | negation d ih =>
      by_cases h : ∃ f, d.normalize = .negation f
      · obtain ⟨f, hf⟩ := h
        rw [normalize_negation_of_eq hf]
        rintro rfl
        exact ih _ hf
      · have hne : ∀ f, d.normalize ≠ .negation f := fun f hf => h ⟨f, hf⟩
        rw [normalize_negation_of_ne hne]
        intro he
        exact hne e (Diagram.negation.inj he)
  | binary c l r =>
      rw [normalize]
      split <;> exact nofun

theorem normalize_negation_negation (d : Diagram) :
    (negation (negation d)).normalize = d.normalize := by
  by_cases h : ∃ e, d.normalize = .negation e
  · obtain ⟨e, he⟩ := h
    have hneg := normalize_negation_of_eq he
    have hne : ∀ f, (negation d).normalize ≠ .negation f := by
      rw [hneg]
      rintro f rfl
      exact normalize_ne_negation_negation d f he
    rw [normalize_negation_of_ne hne, hneg, he]
  · exact normalize_negation_of_eq (normalize_negation_of_ne fun e he => h ⟨e, he⟩)

theorem valid_normalize (hd : d.Valid) : d.normalize.Valid := by
  induction d with
  | null => exact trivial
  | primary p =>
      rw [normalize]
      split
      · exact trivial
      · exact hd
  | negation d ih =>
      by_cases h : ∃ e, d.normalize = .negation e
      · obtain ⟨e, he⟩ := h
        have hv := ih hd
        rw [he] at hv
        rw [normalize_negation_of_eq he]
        exact hv
      · rw [normalize_negation_of_ne fun e he => h ⟨e, he⟩]
        exact ih hd
  | binary c l r ihl ihr =>
      rw [normalize]
      split
      · exact ⟨ihr hd.2, ihl hd.1⟩
      · exact ⟨ihl hd.1, ihr hd.2⟩

/-- Of two operands with different texts the smaller comes first in both orders, and operands with
the same text are equal. -/
theorem normalize_swap (hc : c ≠ .implication) (hl : l.Valid) (hr : r.Valid) :
    (binary c l r).normalize = (binary c r l).normalize := by
  have hcomm : c.isCommutative = true := by
    cases c with
    | conjunction | disjunction | equivalence => rfl
    | implication => exact absurd rfl hc
  simp only [normalize, hcomm, true_and]
  by_cases hrl : r.normalize.text < l.normalize.text
  · rw [if_pos hrl, if_neg (String.lt_asymm hrl)]
  · by_cases hlr : l.normalize.text < r.normalize.text
    · rw [if_neg hrl, if_pos hlr]
    · have htext : l.normalize.text = r.normalize.text :=
        String.le_antisymm (String.not_lt.1 hrl) (String.not_lt.1 hlr)
      rw [if_neg hrl, if_neg hlr, eq_of_text_eq (valid_normalize hl) (valid_normalize hr) htext]

theorem normalize_eq_of_congruent (h : Congruent a b) : a.normalize = b.normalize := by
  induction h with
  | refl => rfl
  | symm _ ih => exact ih.symm
  | trans _ _ ih ih' => exact ih.trans ih'
  | negation _ ih => rw [normalize, normalize, ih]
  | binary c _ _ iha ihb => rw [normalize, normalize, iha, ihb]
  | empty _ hs hz => exact if_pos (Primary.isTrivial_iff.2 ⟨hs, hz⟩)
  | cancel => exact normalize_negation_negation _
  | swap hc hl hr => exact normalize_swap hc hl hr

theorem congruent_normalize (hd : d.Valid) : Congruent d d.normalize := by
  induction d with
  | null => exact .refl hd
  | primary p =>
      rw [normalize]
      by_cases hp : p.isTrivial = true
      · rw [if_pos hp]
        obtain ⟨hs, hz⟩ := Primary.isTrivial_iff.1 hp
        exact .empty hd hs hz
      · rw [if_neg hp]
        exact .refl hd
  | negation d ih =>
      have hneg : Congruent (.negation d) (.negation d.normalize) := .negation (ih hd)
      by_cases h : ∃ e, d.normalize = .negation e
      · obtain ⟨e, he⟩ := h
        have hv := valid_normalize hd
        rw [normalize_negation_of_eq he] at hv ⊢
        rw [he] at hneg
        exact hneg.trans (.cancel hv)
      · rw [normalize_negation_of_ne fun e he => h ⟨e, he⟩]
        exact hneg
  | binary c l r ihl ihr =>
      have hlr : Congruent (.binary c l r) (.binary c l.normalize r.normalize) :=
        .binary c (ihl hd.1) (ihr hd.2)
      rw [normalize]
      by_cases hc : c.isCommutative ∧ r.normalize.text < l.normalize.text
      · have himp : c ≠ .implication := by
          rintro rfl
          cases hc.1
        simp only [if_pos hc]
        exact hlr.trans (.swap himp (valid_normalize hd.1) (valid_normalize hd.2))
      · simp only [if_neg hc]
        exact hlr

theorem congruent_iff (ha : a.Valid) (hb : b.Valid) :
    Congruent a b ↔ a.normalize = b.normalize := by
  refine ⟨normalize_eq_of_congruent, ?_⟩
  intro h
  have hab := congruent_normalize ha
  rw [h] at hab
  exact hab.trans (congruent_normalize hb).symm

/-- Valid diagrams are found to be equivalent exactly where the laws of the congruence make them
so, and the normal form picks one diagram from each of its classes. -/
theorem equivalent_iff_congruent (ha : a.Valid) (hb : b.Valid) :
    (a.Equivalent b ↔ Congruent a b) ∧ (a.normalize.Valid ∧ Congruent a a.normalize) ∧
      (Congruent a b ↔ a.normalize = b.normalize) ∧ a.normalize.normalize = a.normalize :=
  ⟨(congruent_iff ha hb).symm, ⟨valid_normalize ha, congruent_normalize ha⟩, congruent_iff ha hb,
    (normalize_eq_of_congruent (congruent_normalize ha)).symm⟩

theorem equivalent_iff_congruent_nested :
    let p : Diagram := .primary ⟨.ofList [("s", .ofList [.ofLists ["A"] []])], ∅⟩
    let empty : Diagram := .primary ⟨∅, ∅⟩
    let d : Diagram := .negation (.binary .equivalence (.negation (.negation empty)) p)
    let e : Diagram := .negation (.negation (.negation (.binary .equivalence p .null)))
    d.Valid ∧ e.Valid ∧ Congruent d e ∧
      ¬ Congruent (.binary .implication d p) (.binary .implication p e) := by
  intro p empty d e
  have hp : p.Valid := by decide
  have hd : d.Valid := by decide
  have he : e.Valid := by decide
  refine ⟨hd, he, (equivalent_iff_congruent hd he).1.1 (by decide +kernel), ?_⟩
  intro h
  exact absurd ((equivalent_iff_congruent (a := .binary .implication d p)
    (b := .binary .implication p e) ⟨hd, hp⟩ ⟨hp, he⟩).1.2 h) (by decide +kernel)

end SpiderDiagrams.Diagram
