import Mathlib.Data.Set.Defs
import SpiderDiagrams.Goals

universe u

namespace SpiderDiagrams

/-- The subset of the universe that each contour encloses. -/
structure Interpretation (U : Type u) where
  contour : String → Set U

def Connective.truth : Connective → Prop → Prop → Prop
  | conjunction, a, b => a ∧ b
  | disjunction, a, b => a ∨ b
  | implication, a, b => a → b
  | equivalence, a, b => a ↔ b

namespace Interpretation

variable {U : Type u} (I : Interpretation U)

def zone (z : Zone) : Set U :=
  {x | (∀ c ∈ z.inside, x ∈ I.contour c) ∧ ∀ c ∈ z.outside, x ∉ I.contour c}

def region (r : Region) : Set U := {x | ∃ z ∈ r, x ∈ I.zone z}

/-- A choice of distinct elements for the spiders, each in the habitat of its spider, such that the
shaded zones have no others. -/
structure Choice (p : Primary) where
  element : {s // s ∈ p.spiders} → U
  injective : Function.Injective element
  inhabits : ∀ s r, p.habitat? s.1 = some r → element s ∈ I.region r
  covers : ∀ z ∈ p.shaded, ∀ x ∈ I.zone z, ∃ s, element s = x

def Holds : Diagram → Prop
  | .null => True
  | .primary p => Nonempty (I.Choice p)
  | .negation d => ¬ Holds d
  | .binary c l r => c.truth (Holds l) (Holds r)

def Hold (g : Goals) : Prop := ∀ d ∈ g, I.Holds d

end Interpretation

theorem Connective.truth_comm {c : Connective} (h : c.isCommutative = true) (a b : Prop) :
    c.truth a b ↔ c.truth b a := by
  cases c with
  | conjunction => exact and_comm
  | disjunction => exact or_comm
  | implication => cases h
  | equivalence => exact iff_comm

theorem Connective.truth_congr (c : Connective) {a a' b b' : Prop} (ha : a ↔ a') (hb : b ↔ b') :
    c.truth a b ↔ c.truth a' b' := by
  rw [propext ha, propext hb]

namespace Interpretation

variable {U : Type u} {I : Interpretation U} {d e : Diagram} {g : Goals}

theorem holds_primary_of_isTrivial {p : Primary} (h : p.isTrivial = true) :
    I.Holds (.primary p) := by
  rw [Primary.isTrivial, Bool.and_eq_true] at h
  have hspiders : ∀ s, s ∉ p.spiders := by
    intro s hs
    have hnil : p.spiders.toList = [] := List.isEmpty_iff.1 h.1
    have hm : s ∈ p.spiders.toList := hs
    simp [hnil] at hm
  have hshaded : ∀ z, z ∉ p.shaded := by
    intro z hz
    have hnil : p.shaded.toList = [] := List.isEmpty_iff.1 h.2
    have hm : z ∈ p.shaded.toList := hz
    simp [hnil] at hm
  exact ⟨fun s => absurd s.2 (hspiders s.1), fun s => absurd s.2 (hspiders s.1),
    fun s => absurd s.2 (hspiders s.1), fun z hz => absurd hz (hshaded z)⟩

theorem holds_of_isTrivial (h : d.isTrivial = true) : I.Holds d := by
  cases d with
  | null => exact trivial
  | primary p => exact holds_primary_of_isTrivial h
  | negation d => cases h
  | binary c l r => cases h

theorem hold_dischargeTrivial : I.Hold g.dischargeTrivial ↔ I.Hold g := by
  constructor
  · intro h d hd
    by_cases ht : d.isTrivial = true
    · exact holds_of_isTrivial ht
    · exact h d (List.mem_filter.2 ⟨hd, by simp [ht]⟩)
  · intro h d hd
    exact h d (List.mem_filter.1 hd).1

theorem holds_negation_negation (d : Diagram) : I.Holds (.negation (.negation d)) ↔ I.Holds d :=
  Classical.not_not

theorem holds_normalize (d : Diagram) : I.Holds d.normalize ↔ I.Holds d := by
  induction d with
  | null => exact Iff.rfl
  | primary p =>
      rw [Diagram.normalize]
      by_cases hp : p.isTrivial = true
      · rw [if_pos hp]
        exact iff_of_true trivial (holds_primary_of_isTrivial hp)
      · rw [if_neg hp]
  | negation d ih =>
      have hd : I.Holds (.negation d) ↔ ¬ I.Holds d.normalize := not_congr ih.symm
      rw [Diagram.normalize, hd]
      cases d.normalize with
      | null | primary | binary => exact Iff.rfl
      | negation e => exact Classical.not_not.symm
  | binary c l r ihl ihr =>
      have hlr : I.Holds (.binary c l.normalize r.normalize) ↔ I.Holds (.binary c l r) :=
        c.truth_congr ihl ihr
      rw [Diagram.normalize, ← hlr]
      by_cases hc : c.isCommutative ∧ r.normalize.text < l.normalize.text
      · simp only [if_pos hc]
        exact Connective.truth_comm hc.1 _ _
      · simp only [if_neg hc]

theorem holds_iff_of_equivalent (h : d.Equivalent e) : I.Holds d ↔ I.Holds e := by
  rw [← holds_normalize d, ← holds_normalize e, h]

end Interpretation

end SpiderDiagrams
