import Mathlib.Data.Nat.Find
import Mathlib.Order.Bounds.Defs
import SpiderDiagrams.Proofs.Application
import SpiderDiagrams.Proofs.Derivation

namespace SpiderDiagrams

variable {rules : List Rule} {g g' h h' k g₁ g₂ : Goals} {d e e' : Diagram} {m n : Nat}
  {c : Candidate}

namespace Goals

theorem getElem?_middle (g₁ g₂ : Goals) (d : Diagram) :
    (g₁ ++ d :: g₂)[g₁.length]? = some d := by
  simp

theorem exists_middle {i : Nat} (hd : g[i]? = some d) :
    ∃ g₁ g₂, g = g₁ ++ d :: g₂ ∧ g₁.length = i := by
  obtain ⟨hi, rfl⟩ := List.getElem?_eq_some_iff.1 hd
  refine ⟨g.take i, g.drop (i + 1), ?_, List.length_take_of_le (Nat.le_of_lt hi)⟩
  rw [← List.drop_eq_getElem_cons hi, List.take_append_drop]

theorem replaceSubgoal?_middle (g₁ g₂ : Goals) (d : Diagram) (ds : List Diagram) :
    replaceSubgoal? (g₁ ++ d :: g₂) g₁.length ds = some (g₁ ++ dischargeTrivial ds ++ g₂) := by
  simp [replaceSubgoal?]

theorem rewritten_middle :
    Rewritten (g₁ ++ d :: g₂) h ⟨g₁.length, n⟩ e e' ↔
      ∃ k, Rewritten [d] k ⟨0, n⟩ e e' ∧ h = g₁ ++ k ++ g₂ := by
  constructor
  · rintro ⟨x, x', hx, hs, hx', hh⟩
    rw [getElem?_middle] at hx
    obtain rfl := Option.some.inj hx
    rw [replaceSubgoal?_middle] at hh
    exact ⟨_, ⟨d, x', rfl, hs, hx', replaceSubgoal?_middle [] [] d [x']⟩,
      by simpa using (Option.some.inj hh).symm⟩
  · rintro ⟨k, ⟨x, x', hx, hs, hx', hk⟩, rfl⟩
    obtain rfl := Option.some.inj hx
    obtain rfl := Option.some.inj ((replaceSubgoal?_middle [] [] d [x']).symm.trans hk)
    refine ⟨d, x', getElem?_middle g₁ g₂ d, hs, hx', ?_⟩
    simpa using replaceSubgoal?_middle g₁ g₂ d [x']

end Goals

theorem Rule.applies_middle :
    Rule.Applies (g₁ ++ d :: g₂) c.rule (c.argument g₁.length) h ↔
      ∃ k, Rule.Applies [d] c.rule (c.argument 0) k ∧ h = g₁ ++ k ++ g₂ := by
  obtain ⟨rule, n, detail⟩ := c
  constructor
  · intro ha
    cases detail with
    | none =>
        cases ha with
        | split ht hd hr =>
            rw [Goals.getElem?_middle] at hd
            rw [Goals.replaceSubgoal?_middle] at hr
            exact ⟨_, .split ht hd (Goals.replaceSubgoal?_middle [] [] d _),
              by simpa using (Option.some.inj hr).symm⟩
        | replace hf he hr =>
            obtain ⟨k, hk, rfl⟩ := Goals.rewritten_middle.1 hr
            exact ⟨k, .replace hf he hk, rfl⟩
    | operand m =>
        cases ha with
        | eliminate ht he hr =>
            obtain ⟨k, hk, rfl⟩ := Goals.rewritten_middle.1 hr
            exact ⟨k, .eliminate rfl he hk, rfl⟩
    | spider name region =>
        cases ha with
        | splitSpiders he hr =>
            obtain ⟨k, hk, rfl⟩ := Goals.rewritten_middle.1 hr
            exact ⟨k, .splitSpiders he hk, rfl⟩
  · rintro ⟨k, ha, rfl⟩
    cases detail with
    | none =>
        cases ha with
        | @split _ l r _ ht hd hr =>
            obtain rfl := Option.some.inj hd
            obtain rfl := Option.some.inj ((Goals.replaceSubgoal?_middle [] [] _ [l, r]).symm.trans hr)
            refine .split ht (Goals.getElem?_middle g₁ g₂ _) ?_
            simpa using Goals.replaceSubgoal?_middle g₁ g₂ _ [l, r]
        | replace hf he hr => exact .replace hf he (Goals.rewritten_middle.2 ⟨k, hr, rfl⟩)
    | operand m =>
        cases ha with
        | eliminate ht he hr => exact .eliminate rfl he (Goals.rewritten_middle.2 ⟨k, hr, rfl⟩)
    | spider name region =>
        cases ha with
        | splitSpiders he hr => exact .splitSpiders he (Goals.rewritten_middle.2 ⟨k, hr, rfl⟩)

namespace Goals

theorem mem_candidates_middle :
    (g₁.length, c) ∈ candidates rules (g₁ ++ d :: g₂) ↔ (0, c) ∈ candidates rules [d] := by
  rw [mem_candidates, mem_candidates, getElem?_middle]
  rfl

/-- A step is one of a single subgoal. -/
theorem step_iff :
    Step rules g h ↔
      ∃ g₁ d g₂ k, g = g₁ ++ d :: g₂ ∧ Step rules [d] k ∧ h = g₁ ++ k ++ g₂ := by
  constructor
  · rintro ⟨i, c, hc, ha⟩
    obtain ⟨d, hd, _⟩ := mem_candidates.1 hc
    obtain ⟨g₁, g₂, rfl, rfl⟩ := exists_middle hd
    obtain ⟨k, hk, rfl⟩ := Rule.applies_middle.1 (Rule.applies_of_apply ha)
    exact ⟨g₁, d, g₂, k, rfl, ⟨0, c, mem_candidates_middle.1 hc, Rule.apply_of_applies hk⟩, rfl⟩
  · rintro ⟨g₁, d, g₂, k, rfl, ⟨i, c, hc, ha⟩, rfl⟩
    obtain ⟨_, hd, _⟩ := mem_candidates.1 hc
    obtain rfl : i = 0 := by simpa using (List.getElem?_eq_some_iff.1 hd).1
    exact ⟨g₁.length, c, mem_candidates_middle.2 hc,
      Rule.apply_of_applies (Rule.applies_middle.2 ⟨k, Rule.applies_of_apply ha, rfl⟩)⟩

theorem Step.append_right (hs : Step rules g g') (h : Goals) : Step rules (g ++ h) (g' ++ h) := by
  obtain ⟨g₁, d, g₂, k, rfl, hk, rfl⟩ := step_iff.1 hs
  exact step_iff.2 ⟨g₁, d, g₂ ++ h, k, by simp, hk, by simp⟩

theorem Step.append_left (g : Goals) (hs : Step rules h h') : Step rules (g ++ h) (g ++ h') := by
  obtain ⟨h₁, d, h₂, k, rfl, hk, rfl⟩ := step_iff.1 hs
  exact step_iff.2 ⟨g ++ h₁, d, h₂, k, by simp, hk, by simp⟩

theorem step_append_iff :
    Step rules (g ++ h) k ↔
      (∃ g', Step rules g g' ∧ k = g' ++ h) ∨ ∃ h', Step rules h h' ∧ k = g ++ h' := by
  constructor
  · intro hs
    obtain ⟨k₁, d, k₂, x, he, hx, rfl⟩ := step_iff.1 hs
    rcases List.append_eq_append_iff.1 he with ⟨l, rfl, rfl⟩ | ⟨l, rfl, hl⟩
    · exact .inr ⟨l ++ x ++ k₂, step_iff.2 ⟨l, d, k₂, x, rfl, hx, rfl⟩, by simp⟩
    · cases l with
      | nil =>
          obtain rfl : d :: k₂ = h := hl
          exact .inr ⟨x ++ k₂, step_iff.2 ⟨[], d, k₂, x, rfl, hx, rfl⟩, by simp⟩
      | cons y l =>
          obtain ⟨rfl, rfl⟩ := List.cons.inj hl
          exact .inl ⟨k₁ ++ x ++ l, step_iff.2 ⟨k₁, d, l, x, rfl, hx, rfl⟩, by simp⟩
  · rintro (⟨g', hs, rfl⟩ | ⟨h', hs, rfl⟩)
    · exact hs.append_right h
    · exact hs.append_left g

theorem DerivesIn.append_right (hd : DerivesIn rules g n g') (h : Goals) :
    DerivesIn rules (g ++ h) n (g' ++ h) := by
  induction hd with
  | refl => exact .refl
  | tail _ hs ih => exact ih.tail (hs.append_right h)

theorem DerivesIn.append_left (g : Goals) (hd : DerivesIn rules h n h') :
    DerivesIn rules (g ++ h) n (g ++ h') := by
  induction hd with
  | refl => exact .refl
  | tail _ hs ih => exact ih.tail (hs.append_left g)

theorem DerivesIn.trans (hg : DerivesIn rules g m h) (hh : DerivesIn rules h n k) :
    DerivesIn rules g (m + n) k := by
  induction hh with
  | refl => exact hg
  | tail _ hs ih => exact ih.tail hs

theorem derivesIn_append_iff :
    DerivesIn rules (g ++ h) n k ↔
      ∃ i j g' h', n = i + j ∧ k = g' ++ h' ∧ DerivesIn rules g i g' ∧ DerivesIn rules h j h' := by
  constructor
  · intro hd
    induction hd with
    | refl => exact ⟨0, 0, g, h, rfl, rfl, .refl, .refl⟩
    | tail _ hs ih =>
        obtain ⟨i, j, g', h', rfl, rfl, hg, hh⟩ := ih
        rcases step_append_iff.1 hs with ⟨g'', hg', rfl⟩ | ⟨h'', hh', rfl⟩
        · exact ⟨i + 1, j, g'', h', Nat.add_right_comm i j 1, rfl, hg.tail hg', hh⟩
        · exact ⟨i, j + 1, g', h'', rfl, rfl, hg, hh.tail hh'⟩
  · rintro ⟨i, j, g', h', rfl, rfl, hg, hh⟩
    exact (hg.append_right h).trans (hh.append_left g')

theorem derivesIn_append_nil_iff :
    DerivesIn rules (g ++ h) n [] ↔
      ∃ i j, n = i + j ∧ DerivesIn rules g i [] ∧ DerivesIn rules h j [] := by
  rw [derivesIn_append_iff]
  constructor
  · rintro ⟨i, j, g', h', hn, hnil, hg, hh⟩
    obtain ⟨rfl, rfl⟩ := List.append_eq_nil_iff.1 hnil.symm
    exact ⟨i, j, hn, hg, hh⟩
  · rintro ⟨i, j, hn, hg, hh⟩
    exact ⟨i, j, [], [], hn, rfl, hg, hh⟩

theorem exists_isLeast_of_derives (hd : Derives rules g h) :
    ∃ n, IsLeast {n | DerivesIn rules g n h} n := by
  classical
  have hex := derives_iff_derivesIn.1 hd
  exact ⟨Nat.find hex, Nat.find_spec hex, fun _ hn => Nat.find_min' hex hn⟩

/-- Two lists of goals can be emptied together if and only if each can be emptied alone, and then
the shortest derivations together take as many steps as they do one after the other. -/
theorem derives_append_iff (rules : List Rule) (g h : Goals) :
    (Derives rules (g ++ h) [] ↔ Derives rules g [] ∧ Derives rules h []) ∧
      (Derives rules g [] → Derives rules h [] →
        ∃ m n, IsLeast {i | DerivesIn rules g i []} m ∧ IsLeast {i | DerivesIn rules h i []} n ∧
          IsLeast {i | DerivesIn rules (g ++ h) i []} (m + n)) := by
  constructor
  · simp only [derives_iff_derivesIn, derivesIn_append_nil_iff]
    constructor
    · rintro ⟨_, i, j, _, hg, hh⟩
      exact ⟨⟨i, hg⟩, j, hh⟩
    · rintro ⟨⟨i, hg⟩, j, hh⟩
      exact ⟨i + j, i, j, rfl, hg, hh⟩
  · intro hg hh
    obtain ⟨m, hm⟩ := exists_isLeast_of_derives hg
    obtain ⟨n, hn⟩ := exists_isLeast_of_derives hh
    refine ⟨m, n, hm, hn, derivesIn_append_nil_iff.2 ⟨m, n, rfl, hm.1, hn.1⟩, ?_⟩
    intro i hi
    obtain ⟨a, b, rfl, ha, hb⟩ := derivesIn_append_nil_iff.1 hi
    exact Nat.add_le_add (hm.2 ha) (hn.2 hb)

theorem derives_append_iff_premise :
    let d : Diagram := .primary ⟨∅, .ofList [.ofLists ["A"] []]⟩
    let rules : List Rule := [.splitConjunction, .conjunctionElimination, .trivialImplication]
    let g : Goals := [.binary .conjunction .null (.primary ⟨∅, ∅⟩)]
    let h : Goals := [.binary .implication (.binary .conjunction .null d) d]
    Derives rules g [] ∧ Derives rules h [] ∧ Derives rules (g ++ h) [] ∧
      ∃ m n, IsLeast {i | DerivesIn rules g i []} m ∧ IsLeast {i | DerivesIn rules h i []} n ∧
        IsLeast {i | DerivesIn rules (g ++ h) i []} (m + n) := by
  intro d rules g h
  have hg : Derives rules g [] :=
    .single ⟨0, ⟨.splitConjunction, 0, .none⟩, by decide +kernel, by decide +kernel⟩
  have hh : Derives rules h [] :=
    .head (b := [.binary .implication d d])
      ⟨0, ⟨.conjunctionElimination, 1, .operand 3⟩, by decide +kernel, by decide +kernel⟩
      (.single ⟨0, ⟨.trivialImplication, 0, .none⟩, by decide +kernel, by decide +kernel⟩)
  obtain ⟨hiff, hleast⟩ := derives_append_iff rules g h
  exact ⟨hg, hh, hiff.2 ⟨hg, hh⟩, hleast hg hh⟩

end Goals

end SpiderDiagrams
