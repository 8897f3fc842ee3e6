import SpiderDiagrams.Proofs.Candidates
import SpiderDiagrams.Proofs.Diagram.Context
import SpiderDiagrams.Proofs.Subgoals

namespace SpiderDiagrams

namespace Rule

/-- What a candidate of a rule does to the diagram at its place. -/
inductive Moves : Rule → Diagram → Diagram → Prop
  | left (l r : Diagram) : Moves .conjunctionElimination (.binary .conjunction l r) l
  | right (l r : Diagram) : Moves .conjunctionElimination (.binary .conjunction l r) r
  | habitat {p : Primary} {spider : String} {region habitat : Region} {e' : Diagram}
      (hs : p.habitat? spider = some habitat) (hr : ProperPart region habitat)
      (hone : region.size = 1) (he : splitHabitat spider region (.primary p) = .ok e') :
      Moves .splitSpiders (.primary p) e'
  | replace {rule : Rule} {e e' : Diagram} (hr : Replaces rule e e')
      (hw : rule = .doubleNegationIntroduction → e.operands = []) : Moves rule e e'

theorem exists_replacement?_of_replaces {rule : Rule} {e e' : Diagram} (h : Replaces rule e e') :
    ∃ f, rule.replacement? = some f ∧ f e = .ok e' := by
  cases h with
  | drop | wrap => exact ⟨_, rfl, rfl⟩
  | swap hc => exact ⟨_, rfl, if_pos hc⟩
  | collapse hc he =>
      rcases hc with rfl | rfl
      · exact ⟨_, rfl, if_pos he⟩
      · exact ⟨_, rfl, if_pos he⟩
  | close he => exact ⟨_, rfl, if_pos he⟩

theorem apply_of_replaces {rule : Rule} {g h : Goals} {t : Target} {e e' : Diagram}
    (hr : Replaces rule e e') (ht : g.Rewritten h t e e') : rule.apply (.single t) g = .ok h := by
  obtain ⟨f, hf, he⟩ := exists_replacement?_of_replaces hr
  exact apply_of_applies (.replace hf he ht)

theorem exists_replaces_of_apply {rule : Rule} {g h : Goals} {a : Argument}
    (ha : rule.apply a g = .ok h) (hrule : rule.replacement? ≠ none) :
    ∃ t e e', a = .single t ∧ Replaces rule e e' ∧ g.Rewritten h t e e' := by
  cases applies_of_apply ha with
  | split | eliminate | splitSpiders => exact absurd rfl hrule
  | replace hf he hr => exact ⟨_, _, _, rfl, replaces_of_replacement? hf he, hr⟩

end Rule

theorem Context.isTrivial_fill (K : Context) {e : Diagram} (he : e.isTrivial = false) :
    (K.fill e).isTrivial = false := by
  cases K with
  | hole => exact he
  | negation | left | right => rfl

namespace Goals

variable {rules : List Rule} {k : Goals} {d e e' : Diagram} {n : Nat}

theorem rewritten_singleton :
    Rewritten [d] k ⟨0, n⟩ e e' ↔
      ∃ K : Context, K.index = n ∧ K.fill e = d ∧ k = dischargeTrivial [K.fill e'] := by
  constructor
  · rintro ⟨x, x', hx, hs, hx', hk⟩
    obtain rfl := Option.some.inj hx
    obtain ⟨K, rfl, rfl⟩ := Context.exists_fill hs
    rw [K.replaceAt?_fill] at hx'
    obtain rfl := Option.some.inj hx'
    exact ⟨K, rfl, rfl, by simpa using eq_of_replaceSubgoal? hk⟩
  · rintro ⟨K, rfl, rfl, rfl⟩
    exact ⟨_, _, rfl, K.sub?_fill e, K.replaceAt?_fill e e',
      by simpa using replaceSubgoal?_middle [] [] (K.fill e) [K.fill e']⟩

/-- One subgoal is changed in one context; the others stay around it, and it needs no place if it
has become trivial. -/
theorem rewritten_iff {g : Goals} {t : Target} :
    Rewritten g k t e e' ↔ ∃ (g₁ g₂ : Goals) (K : Context), t = ⟨g₁.length, K.index⟩ ∧
      g = g₁ ++ K.fill e :: g₂ ∧ k = g₁ ++ dischargeTrivial [K.fill e'] ++ g₂ := by
  constructor
  · intro hr
    obtain ⟨x, _, hx, _⟩ := id hr
    obtain ⟨i, m⟩ := t
    obtain ⟨g₁, g₂, rfl, rfl⟩ := exists_middle hx
    obtain ⟨k', hk, rfl⟩ := rewritten_middle.1 hr
    obtain ⟨K, rfl, rfl, rfl⟩ := rewritten_singleton.1 hk
    exact ⟨g₁, g₂, K, rfl, rfl, rfl⟩
  · rintro ⟨g₁, g₂, K, rfl, rfl, rfl⟩
    exact rewritten_middle.2 ⟨_, rewritten_singleton.2 ⟨K, rfl, rfl, rfl⟩, rfl⟩

theorem dischargeTrivial_singleton (hd : d.isTrivial = false) : dischargeTrivial [d] = [d] :=
  List.filter_cons_of_pos (by rw [hd]; rfl)

theorem step_of_details {rule : Rule} (K : Context) (detail : Detail) (hr : rule ∈ rules)
    (hd : detail ∈ rule.detailsAt ⟨K.index, e⟩)
    (ha : rule.Applies [K.fill e] (Candidate.argument ⟨rule, K.index, detail⟩ 0) k) :
    Step rules [K.fill e] k := by
  refine ⟨0, ⟨rule, K.index, detail⟩, mem_candidates.2 ⟨K.fill e, rfl, hr, ?_⟩,
    Rule.apply_of_applies ha⟩
  exact Rule.mem_candidates.2 ⟨rfl, e, K.sub?_fill e, hd⟩

theorem step_of_moves {rule : Rule} (hr : rule ∈ rules) (h : rule.Moves e e') (K : Context) :
    Step rules [K.fill e] (dischargeTrivial [K.fill e']) := by
  have hk : Rewritten [K.fill e] (dischargeTrivial [K.fill e']) ⟨0, K.index⟩ e e' :=
    rewritten_singleton.2 ⟨K, rfl, rfl, rfl⟩
  cases h with
  | left _ r =>
      refine step_of_details K (.operand (K.index + 1)) hr
        (Rule.mem_detailsAt_conjunctionElimination.2 (.left _ e' r)) (.eliminate rfl ?_ hk)
      rw [Nat.add_sub_cancel_left]
      rfl
  | right l _ =>
      refine step_of_details K (.operand (K.index + (l.size + 1))) hr
        (Rule.mem_detailsAt_conjunctionElimination.2 (.right _ l e')) (.eliminate rfl ?_ hk)
      have hpos := l.size_pos
      rw [Nat.add_sub_cancel_left, Rule.keepOperand, if_neg (by omega), if_pos rfl]
  | @habitat _ spider region _ _ hs hpart hone he =>
      exact step_of_details K (.spider spider region) hr (Rule.mem_detailsAt_splitSpiders.2
        ⟨.habitat _ hs hpart, _, _, rfl, hone⟩) (.splitSpiders he hk)
  | replace hrep hw =>
      obtain ⟨f, hf, he⟩ := Rule.exists_replacement?_of_replaces hrep
      refine step_of_details K .none hr ?_ (.replace hf he hk)
      by_cases hi : rule = .doubleNegationIntroduction
      · subst hi
        exact Rule.mem_detailsAt_doubleNegationIntroduction.2 ⟨.replace _ hf he, hw rfl⟩
      · exact (Rule.mem_detailsAt_of_replacement? hf hi).2 (.replace _ hf he)

theorem step_of_conjunction (hr : .splitConjunction ∈ rules) (l r : Diagram) :
    Step rules [.binary .conjunction l r] (dischargeTrivial [l, r]) := by
  have hk := replaceSubgoal?_middle [] [] (.binary .conjunction l r) [l, r]
  rw [List.append_nil] at hk
  exact step_of_details .hole .none hr (Rule.mem_detailsAt_splitConjunction.2 (.split l r))
    (.split rfl rfl hk)

theorem step_singleton_iff :
    Step rules [d] k ↔
      (.splitConjunction ∈ rules ∧
        ∃ l r, d = .binary .conjunction l r ∧ k = dischargeTrivial [l, r]) ∨
      ∃ rule ∈ rules, ∃ (K : Context) (e e' : Diagram), rule.Moves e e' ∧ K.fill e = d ∧
        k = dischargeTrivial [K.fill e'] := by
  constructor
  · rintro ⟨i, ⟨rule, n, detail⟩, hc, ha⟩
    obtain ⟨x, hx, hr, hc⟩ := mem_candidates.1 hc
    obtain rfl : i = 0 := by simpa using (List.getElem?_eq_some_iff.1 hx).1
    obtain rfl := Option.some.inj hx
    obtain ⟨_, e, hs, hd⟩ := Rule.mem_candidates.1 hc
    have ha := Rule.applies_of_apply ha
    cases detail with
    | none =>
        cases ha with
        | @split _ l r _ _ hg hk =>
            obtain rfl := Option.some.inj hg
            exact .inl ⟨hr, l, r, rfl, by simpa using eq_of_replaceSubgoal? hk⟩
        | replace hf he hk =>
            obtain ⟨K, rfl, rfl, rfl⟩ := rewritten_singleton.1 hk
            obtain rfl := Option.some.inj ((K.sub?_fill _).symm.trans hs)
            have hrep := Rule.replaces_of_replacement? hf he
            refine .inr ⟨rule, hr, K, _, _, .replace hrep ?_, rfl, rfl⟩
            rintro rfl
            exact (Rule.mem_detailsAt_doubleNegationIntroduction.1 hd).2
    | operand m =>
        cases ha with
        | eliminate _ he hk =>
            obtain ⟨K, rfl, rfl, rfl⟩ := rewritten_singleton.1 hk
            obtain ⟨l, r, rfl, rfl | rfl⟩ := Rule.of_keepOperand he
            · exact .inr ⟨_, hr, K, _, _, .left _ r, rfl, rfl⟩
            · exact .inr ⟨_, hr, K, _, _, .right l _, rfl, rfl⟩
    | spider name region =>
        cases ha with
        | splitSpiders he hk =>
            obtain ⟨K, rfl, rfl, rfl⟩ := rewritten_singleton.1 hk
            obtain rfl := Option.some.inj ((K.sub?_fill _).symm.trans hs)
            obtain ⟨ha, _, _, hdetail, hone⟩ := Rule.mem_detailsAt_splitSpiders.1 hd
            cases hdetail
            cases ha with
            | habitat _ hp hpart => exact .inr ⟨_, hr, K, _, _, .habitat hp hpart hone he, rfl, rfl⟩
  · rintro (⟨hr, l, r, rfl, rfl⟩ | ⟨rule, hr, K, e, e', h, rfl, rfl⟩)
    · exact step_of_conjunction hr l r
    · exact step_of_moves hr h K

end Goals

end SpiderDiagrams
