import Mathlib.Logic.Relation
import SpiderDiagrams.Rule.Candidate

namespace SpiderDiagrams.Goals

variable {rules : List Rule} {g : Goals} {i : Nat} {c : Candidate}

/-- One of the candidates for the first goals leads to the second. -/
def Step (rules : List Rule) (g h : Goals) : Prop :=
  ∃ i c, (i, c) ∈ g.candidates rules ∧ c.rule.apply (c.argument i) g = .ok h

/-- Finitely many steps lead from the first goals to the second. -/
def Derives (rules : List Rule) : Goals → Goals → Prop := Relation.ReflTransGen (Step rules)

/-- So many steps lead from the first goals to the second. -/
inductive DerivesIn (rules : List Rule) (g : Goals) : Nat → Goals → Prop
  | refl : DerivesIn rules g 0 g
  | tail {n : Nat} {h k : Goals} : DerivesIn rules g n h → Step rules h k →
      DerivesIn rules g (n + 1) k

theorem derives_iff_derivesIn {h : Goals} :
    Derives rules g h ↔ ∃ n, DerivesIn rules g n h := by
  constructor
  · intro hd
    induction hd with
    | refl => exact ⟨0, .refl⟩
    | tail _ hs ih =>
        obtain ⟨n, hn⟩ := ih
        exact ⟨n + 1, .tail hn hs⟩
  · rintro ⟨n, hn⟩
    induction hn with
    | refl => exact .refl
    | tail _ hs ih => exact ih.tail hs

theorem mem_candidates :
    (i, c) ∈ g.candidates rules ↔
      ∃ d, g[i]? = some d ∧ c.rule ∈ rules ∧ c ∈ c.rule.candidates d := by
  rw [candidates, List.mem_flatMap]
  constructor
  · rintro ⟨j, hj, hc⟩
    obtain ⟨b, hb, he⟩ := List.mem_map.1 hc
    obtain ⟨rfl, rfl⟩ := Prod.mk.inj he
    rw [candidatesAt] at hb
    cases hd : g[j]? with
    | none => simp [hd] at hb
    | some d =>
        simp only [hd, List.mem_eraseDups, List.mem_flatMap] at hb
        obtain ⟨rule, hr, hb⟩ := hb
        obtain rfl : b.rule = rule := by
          obtain ⟨o, _, ho⟩ := List.mem_flatMap.1 hb
          obtain ⟨_, _, rfl⟩ := List.mem_map.1 ho
          rfl
        exact ⟨d, rfl, hr, hb⟩
  · rintro ⟨d, hd, hr, hc⟩
    have hi : i < g.length := (List.getElem?_eq_some_iff.1 hd).1
    refine ⟨i, List.mem_range.2 hi, List.mem_map.2 ⟨c, ?_, rfl⟩⟩
    rw [candidatesAt]
    simp only [hd, List.mem_eraseDups, List.mem_flatMap]
    exact ⟨c.rule, hr, hc⟩

end SpiderDiagrams.Goals
