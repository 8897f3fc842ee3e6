import SpiderDiagrams.Proofs.Diagram.Replacement
import SpiderDiagrams.Proofs.Moves

namespace SpiderDiagrams

/-- The target where goals before its own have made way, from the first goals to the second. -/
def Target.behind (g h : Goals) (t : Target) : Target :=
  ⟨t.subgoal + h.length - g.length, t.occurrence⟩

/-- The target where a part before its own has changed, from the first diagram to the second. -/
def Target.renumbered (d d' : Diagram) (t : Target) : Target :=
  ⟨t.subgoal, t.occurrence + d'.size - d.size⟩

def Argument.moved (f : Target → Target) : Argument → Argument
  | single t => single (f t)
  | multiple ts => multiple (ts.map f)
  | spiderRegion t spider region => spiderRegion (f t) spider region

theorem Argument.moved_renumbered_self (a : Argument) (d : Diagram) :
    a.moved (·.renumbered d d) = a := by
  have hid : (fun t : Target => t.renumbered d d) = id := by
    funext t
    exact congrArg (Target.mk t.subgoal) (Nat.add_sub_cancel _ _)
  rw [hid]
  cases a with
  | single | spiderRegion => rfl
  | multiple ts => rw [moved, List.map_id]

variable {g h h₁ h₂ : Goals} {rule rule₁ rule₂ : Rule} {a a₁ a₂ : Argument}
  {d e e₁ e₁' e₂ e₂' : Diagram} {s i j : Nat}

theorem Candidate.mem_targets_argument (c : Candidate) (i : Nat) :
    ⟨i, c.target⟩ ∈ (c.argument i).targets := by
  obtain ⟨rule, n, detail⟩ := c
  cases detail <;> exact List.mem_cons_self

theorem Candidate.moved_argument {f : Target → Target} (c : Candidate)
    (hf : ∀ n, f ⟨i, n⟩ = ⟨j, n⟩) : (c.argument i).moved f = c.argument j := by
  obtain ⟨rule, n, detail⟩ := c
  cases detail <;> simp [argument, Argument.moved, hf]

theorem Rule.exists_candidate_of_apply (ha : rule.apply a g = .ok h)
    (ht : ∀ t ∈ a.targets, t.subgoal = i) :
    ∃ (c : Candidate) (d : Diagram), c.rule = rule ∧ g[i]? = some d ∧ c.argument i = a := by
  obtain ⟨i', d, n, e, detail, hd, _, _, rfl⟩ := atPlace_of_applies (applies_of_apply ha)
  obtain rfl : i' = i := ht _ (Candidate.mem_targets_argument ⟨rule, n, detail⟩ i')
  exact ⟨⟨rule, n, detail⟩, d, rfl, hd, rfl⟩

theorem Goals.exists_two_middles {d₁ d₂ : Diagram} (hij : i < j) (hi : g[i]? = some d₁)
    (hj : g[j]? = some d₂) :
    ∃ g₁ g₂ g₃, g = (g₁ ++ d₁ :: g₂) ++ d₂ :: g₃ ∧ g₁.length = i ∧
      (g₁ ++ d₁ :: g₂).length = j := by
  obtain ⟨l, g₃, rfl, rfl⟩ := exists_middle hj
  rw [List.getElem?_append_left hij] at hi
  obtain ⟨g₁, g₂, rfl, rfl⟩ := exists_middle hi
  exact ⟨g₁, g₂, g₃, rfl, rfl, rfl⟩

theorem Rule.commute_of_subgoals (ha₁ : rule₁.apply a₁ g = .ok h₁)
    (ha₂ : rule₂.apply a₂ g = .ok h₂) (hij : i < j) (ht₁ : ∀ t ∈ a₁.targets, t.subgoal = i)
    (ht₂ : ∀ t ∈ a₂.targets, t.subgoal = j) :
    ∃ k, rule₂.apply (a₂.moved (·.behind g h₁)) h₁ = .ok k ∧ rule₁.apply a₁ h₂ = .ok k := by
  obtain ⟨c₁, d₁, rfl, hd₁, rfl⟩ := exists_candidate_of_apply ha₁ ht₁
  obtain ⟨c₂, d₂, rfl, hd₂, rfl⟩ := exists_candidate_of_apply ha₂ ht₂
  obtain ⟨g₁, g₂, g₃, rfl, rfl, rfl⟩ := Goals.exists_two_middles hij hd₁ hd₂
  have hfront : (g₁ ++ d₁ :: g₂) ++ d₂ :: g₃ = g₁ ++ d₁ :: (g₂ ++ d₂ :: g₃) := by simp
  obtain ⟨k₂, hk₂, rfl⟩ := applies_middle.1 (applies_of_apply ha₂)
  rw [hfront] at ha₁
  obtain ⟨k₁, hk₁, rfl⟩ := applies_middle.1 (applies_of_apply ha₁)
  refine ⟨g₁ ++ k₁ ++ g₂ ++ k₂ ++ g₃, apply_of_applies ?_, apply_of_applies ?_⟩
  · rw [c₂.moved_argument (j := (g₁ ++ k₁ ++ g₂).length), ← List.append_assoc]
    · exact applies_middle.2 ⟨k₂, hk₂, rfl⟩
    · intro n
      rw [Target.behind, Target.mk.injEq]
      refine ⟨?_, rfl⟩
      simp only [List.length_append, List.length_cons]
      omega
  · have hback : (g₁ ++ d₁ :: g₂) ++ k₂ ++ g₃ = g₁ ++ d₁ :: (g₂ ++ k₂ ++ g₃) := by simp
    rw [hback]
    exact applies_middle.2 ⟨k₁, hk₁, by simp⟩

namespace Context

theorem isTrivial_fill_of_index_pos {K : Context} (hK : 0 < K.index) (x : Diagram) :
    (K.fill x).isTrivial = false := by
  cases K with
  | hole => cases hK
  | negation | left | right => rfl

/-- A replacement behind the hole is one in the context: it is made whatever fills the hole, and
leaves the hole where it is. -/
theorem exists_replaceAt?_behind (K : Context) (r : Diagram) {m : Nat}
    (hm : K.index + e.size + m < (K.fill e).size) :
    ∃ L : Context, L.index = K.index ∧
      ∀ x, (K.fill x).replaceAt? (K.index + x.size + m) r = some (L.fill x) := by
  induction K with
  | hole =>
      rw [index, fill] at hm
      omega
  | negation K ih =>
      rw [index, fill, Diagram.size] at hm
      obtain ⟨L, hL, hr⟩ := ih (by omega)
      refine ⟨.negation L, by rw [index, index, hL], ?_⟩
      intro x
      have hindex : K.index + 1 + x.size + m = K.index + x.size + m + 1 := by omega
      rw [index, hindex, fill, Diagram.replaceAt?, hr]
      rfl
  | left c K y ih =>
      rw [index, fill, Diagram.size] at hm
      have hindex (x : Diagram) : K.index + 1 + x.size + m = K.index + x.size + m + 1 := by omega
      by_cases hin : K.index + e.size + m < (K.fill e).size
      · obtain ⟨L, hL, hr⟩ := ih hin
        refine ⟨.left c L y, by rw [index, index, hL], ?_⟩
        intro x
        have hsize := K.size_fill e x
        rw [index, hindex, fill, Diagram.replaceAt?_left (by omega), hr]
        rfl
      -- behind the left operand the context of the hole stays as it is
      · obtain ⟨y', hy⟩ := Diagram.exists_replaceAt?
          (i := K.index + e.size + m - (K.fill e).size) (d := y) (by omega) r
        refine ⟨.left c K y', rfl, ?_⟩
        intro x
        have hsize := K.size_fill e x
        have hplace : K.index + x.size + m =
            (K.fill x).size + (K.index + e.size + m - (K.fill e).size) := by omega
        rw [index, hindex, hplace, fill, Diagram.replaceAt?_right, hy]
        rfl
  | right c y K ih =>
      rw [index, fill, Diagram.size] at hm
      obtain ⟨L, hL, hr⟩ := ih (by omega)
      refine ⟨.right c y L, by rw [index, index, hL], ?_⟩
      intro x
      have hindex : y.size + K.index + 1 + x.size + m = y.size + (K.index + x.size + m) + 1 := by
        omega
      rw [index, hindex, fill, Diagram.replaceAt?_right, hr]
      rfl

end Context

theorem Goals.rewritten_disjoint (hr₁ : g.Rewritten h₁ ⟨s, i⟩ e₁ e₁')
    (hr₂ : g.Rewritten h₂ ⟨s, j⟩ e₂ e₂') (hij : i + e₁.size ≤ j) :
    ∃ d d₁ k, g[s]? = some d ∧ h₁[s]? = some d₁ ∧ d.size ≤ j + d₁.size ∧
      h₁.Rewritten k ⟨s, j + d₁.size - d.size⟩ e₂ e₂' ∧ h₂.Rewritten k ⟨s, i⟩ e₁ e₁' := by
  obtain ⟨g₁, g₂, K, ht, rfl, rfl⟩ := rewritten_iff.1 hr₁
  obtain ⟨rfl, rfl⟩ := Target.mk.inj ht
  obtain ⟨m, rfl⟩ := Nat.exists_eq_add_of_le hij
  obtain ⟨d, d₂, hd, hs, hd₂, hh⟩ := hr₂
  rw [getElem?_middle] at hd
  obtain rfl := Option.some.inj hd
  have hm := Diagram.lt_size_of_sub? hs
  obtain ⟨L, hL, hbehind⟩ := K.exists_replaceAt?_behind e₂' hm
  obtain rfl := Option.some.inj (hd₂.symm.trans (hbehind e₁))
  rw [replaceSubgoal?_middle] at hh
  obtain rfl := Option.some.inj hh
  -- neither part is the whole, so the subgoal stays
  have hK : 0 < K.index := by
    cases K with
    | hole =>
        change 0 + e₁.size + m < e₁.size at hm
        omega
    | negation | left | right => exact Nat.succ_pos _
  have hkeep (x : Diagram) := dischargeTrivial_singleton (K.isTrivial_fill_of_index_pos hK x)
  have hkeep' (x : Diagram) :=
    dischargeTrivial_singleton (L.isTrivial_fill_of_index_pos (hL ▸ hK) x)
  have hsize := K.size_fill e₁ e₁'
  have hmove : K.index + e₁.size + m + (K.fill e₁').size - (K.fill e₁).size =
      K.index + e₁'.size + m := by omega
  refine ⟨K.fill e₁, K.fill e₁', g₁ ++ dischargeTrivial [L.fill e₁'] ++ g₂,
    getElem?_middle g₁ g₂ _, ?_, by omega, ?_, ?_⟩
  · rw [hkeep, List.append_assoc]
    exact getElem?_middle g₁ g₂ _
  · rw [hkeep, hmove, List.append_assoc]
    refine ⟨K.fill e₁', L.fill e₁', getElem?_middle g₁ g₂ _, ?_, hbehind e₁',
      replaceSubgoal?_middle g₁ g₂ _ _⟩
    rw [K.sub?_behind e₁]
    exact hs
  · rw [hkeep', List.append_assoc, ← hL]
    exact rewritten_iff.2 ⟨g₁, g₂, L, rfl, rfl, rfl⟩

namespace Rule

/-- All rules but one rewrite the part at their first target, and do the same wherever the part
stands. -/
theorem Applies.renumbered (ha : Applies g rule a h) (hrule : rule ≠ .splitConjunction) :
    ∃ t e e', a.targets.head? = some t ∧ g.Rewritten h t e e' ∧
      ∀ (d d' : Diagram) (g' h' : Goals), d.size ≤ t.occurrence + d'.size →
        g'.Rewritten h' (t.renumbered d d') e e' →
          Applies g' rule (a.moved (·.renumbered d d')) h' := by
  cases ha with
  | split => exact absurd rfl hrule
  | @eliminate t kept e e' _ ht he hr =>
      refine ⟨t, e, e', rfl, hr, ?_⟩
      intro d d' g' h' hd hr'
      refine .eliminate ht ?_ hr'
      have hdistance : (kept.renumbered d d').occurrence - (t.renumbered d d').occurrence =
          kept.occurrence - t.occurrence := by
        dsimp only [Target.renumbered]
        omega
      rwa [hdistance]
  | splitSpiders he hr =>
      refine ⟨_, _, _, rfl, hr, ?_⟩
      intro d d' g' h' _ hr'
      exact .splitSpiders he hr'
  | replace hf he hr =>
      refine ⟨_, _, _, rfl, hr, ?_⟩
      intro d d' g' h' _ hr'
      exact .replace hf he hr'

theorem commute_of_disjoint (ha₁ : rule₁.apply a₁ g = .ok h₁) (ha₂ : rule₂.apply a₂ g = .ok h₂)
    (hrule₁ : rule₁ ≠ .splitConjunction) (hrule₂ : rule₂ ≠ .splitConjunction)
    (ht₁ : a₁.targets.head? = some ⟨s, i⟩) (ht₂ : a₂.targets.head? = some ⟨s, j⟩)
    (hd : g[s]? = some d) (he : d.sub? i = some e) (hij : i + e.size ≤ j) :
    ∃ d₁ k, h₁[s]? = some d₁ ∧ rule₂.apply (a₂.moved (·.renumbered d d₁)) h₁ = .ok k ∧
      rule₁.apply a₁ h₂ = .ok k := by
  obtain ⟨t₁, e₁, e₁', ht₁', hr₁, hagain₁⟩ := (applies_of_apply ha₁).renumbered hrule₁
  obtain ⟨t₂, e₂, e₂', ht₂', hr₂, hagain₂⟩ := (applies_of_apply ha₂).renumbered hrule₂
  obtain rfl := Option.some.inj (ht₁'.symm.trans ht₁)
  obtain rfl := Option.some.inj (ht₂'.symm.trans ht₂)
  obtain ⟨x, _, hx, hs, _⟩ := id hr₁
  obtain rfl := Option.some.inj (hx.symm.trans hd)
  obtain rfl := Option.some.inj (hs.symm.trans he)
  obtain ⟨y, d₁, k, hy, hd₁, hle, hk₂, hk₁⟩ := Goals.rewritten_disjoint hr₁ hr₂ hij
  obtain rfl := Option.some.inj (hy.symm.trans hd)
  refine ⟨d₁, k, hd₁, apply_of_applies (hagain₂ _ _ _ _ hle hk₂), apply_of_applies ?_⟩
  have hagain := hagain₁ d₁ d₁ h₂ k (Nat.le_add_left _ _)
  rw [Argument.moved_renumbered_self] at hagain
  apply hagain
  rwa [Target.renumbered, Nat.add_sub_cancel]

/-- Two applications to the same goals can be made one after the other, in either order and with the
same outcome, if they are in different subgoals or rewrite parts of one subgoal of which neither
holds the other. In the first case the later subgoal moves by the change in the number of goals, in
the second the later part and what belongs to it by the change in the size of the subgoal. -/
theorem independent_applications_commute (g h₁ h₂ : Goals) (rule₁ rule₂ : Rule) (a₁ a₂ : Argument)
    (ha₁ : rule₁.apply a₁ g = .ok h₁) (ha₂ : rule₂.apply a₂ g = .ok h₂) :
    (∀ i j, i < j → (∀ t ∈ a₁.targets, t.subgoal = i) → (∀ t ∈ a₂.targets, t.subgoal = j) →
      ∃ k, rule₂.apply (a₂.moved (·.behind g h₁)) h₁ = .ok k ∧ rule₁.apply a₁ h₂ = .ok k) ∧
    (rule₁ ≠ .splitConjunction → rule₂ ≠ .splitConjunction → ∀ s i j d e,
      a₁.targets.head? = some ⟨s, i⟩ → a₂.targets.head? = some ⟨s, j⟩ → g[s]? = some d →
      d.sub? i = some e → i + e.size ≤ j →
        ∃ d₁ k, h₁[s]? = some d₁ ∧ rule₂.apply (a₂.moved (·.renumbered d d₁)) h₁ = .ok k ∧
          rule₁.apply a₁ h₂ = .ok k) := by
  constructor
  · intro i j hij ht₁ ht₂
    exact commute_of_subgoals ha₁ ha₂ hij ht₁ ht₂
  · intro hrule₁ hrule₂ s i j d e ht₁ ht₂ hd he hij
    exact commute_of_disjoint ha₁ ha₂ hrule₁ hrule₂ ht₁ ht₂ hd he hij

theorem independent_applications_commute_operand :
    let e : Diagram := .negation .null
    let d (l r : Diagram) : Diagram := .binary .implication l r
    let c : Diagram := .binary .conjunction e .null
    let g : Goals := [.binary .conjunction e e, d (.negation (.negation e)) c]
    let h₁ : Goals := [e, e, d (.negation (.negation e)) c]
    let h₂ : Goals := [.binary .conjunction e e, d e c]
    let h₃ : Goals := [.binary .conjunction e e, d (.negation (.negation e)) .null]
    splitConjunction.apply (.single ⟨0, 0⟩) g = .ok h₁ ∧
      doubleNegationElimination.apply (.single ⟨1, 1⟩) g = .ok h₂ ∧
      conjunctionElimination.apply (.multiple [⟨1, 5⟩, ⟨1, 8⟩]) g = .ok h₃ ∧
      (∃ k, conjunctionElimination.apply (.multiple [⟨2, 5⟩, ⟨2, 8⟩]) h₁ = .ok k ∧
        splitConjunction.apply (.single ⟨0, 0⟩) h₃ = .ok k) ∧
      ∃ k, conjunctionElimination.apply (.multiple [⟨1, 3⟩, ⟨1, 6⟩]) h₂ = .ok k ∧
        doubleNegationElimination.apply (.single ⟨1, 1⟩) h₃ = .ok k := by
  intro e d c g h₁ h₂ h₃
  have ha₁ : splitConjunction.apply (.single ⟨0, 0⟩) g = .ok h₁ := rfl
  have ha₂ : doubleNegationElimination.apply (.single ⟨1, 1⟩) g = .ok h₂ := rfl
  have ha₃ : conjunctionElimination.apply (.multiple [⟨1, 5⟩, ⟨1, 8⟩]) g = .ok h₃ := rfl
  refine ⟨ha₁, ha₂, ha₃, ?_, ?_⟩
  · exact (independent_applications_commute g h₁ h₃ _ _ _ _ ha₁ ha₃).1 0 1 Nat.one_pos
      (by decide) (by decide)
  · obtain ⟨d₁, k, hd₁, hk⟩ := (independent_applications_commute g h₂ h₃ _ _ _ _ ha₂ ha₃).2
      (by decide) (by decide) 1 1 5 _ _ rfl rfl rfl rfl (by decide)
    cases hd₁
    exact ⟨k, hk⟩

end Rule

end SpiderDiagrams
