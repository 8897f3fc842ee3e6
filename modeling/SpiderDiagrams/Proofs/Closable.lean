import SpiderDiagrams.Proofs.Merging

/-!
Rules that work from the outside. Without rules that bring an operand of a conjunction or a
negation's double to the outside, a subgoal can be emptied only if it has a certain shape, which
steps that change normal forms keep and which no negation has.
-/

namespace SpiderDiagrams

variable {rules : List Rule} {rule : Rule} {g h k : Goals} {d e x x' : Diagram} {K : Context}

/-- Double negations stay, conjunctions are not weakened, and where equivalent operands are
collapsed the left operand is the only one that can come to the outside. -/
structure Rule.Direct (rules : List Rule) : Prop where
  drop : .doubleNegationElimination ∉ rules
  keep : .conjunctionElimination ∉ rules
  collapse : .idempotency ∈ rules → .commutativity ∉ rules ∧ .splitConjunction ∉ rules

/-- The shape of diagrams that direct rules can turn into trivial ones. -/
inductive Closable (rules : List Rule) : Diagram → Prop
  | trivial {d : Diagram} (h : d.isTrivial = true) : Closable rules d
  | implication (l r : Diagram) : Closable rules (.binary .implication l r)
  | both {l r : Diagram} (hs : .splitConjunction ∈ rules) (hl : Closable rules l)
      (hr : Closable rules r) : Closable rules (.binary .conjunction l r)
  | left {c : Connective} {l : Diagram} (hs : .idempotency ∈ rules)
      (hc : c = .conjunction ∨ c = .disjunction) (hl : Closable rules l) (r : Diagram) :
      Closable rules (.binary c l r)

namespace Closable

theorem not_negation : ¬Closable rules (.negation d) := by
  intro h
  cases h with
  | trivial h => cases h

theorem isTrivial_of_primary {p : Primary} (h : Closable rules (.primary p)) :
    p.isTrivial = true := by
  cases h with
  | trivial h => exact h

theorem not_hidden (h : Closable rules d) : ¬d.Hidden rules := by
  rintro ⟨⟨e, rfl⟩, -⟩
  exact not_negation h

theorem swap {c : Connective} {l r : Diagram} (hd : Rule.Direct rules)
    (hrule : .commutativity ∈ rules) (hc : c.isCommutative = true)
    (h : Closable rules (.binary c l r)) : Closable rules (.binary c r l) := by
  cases h with
  | trivial h => cases h
  | implication => cases hc
  | both hs hl hr => exact .both hs hr hl
  | left hs => exact absurd hrule (hd.collapse hs).1

theorem not_splitHabitat {p : Primary} {spider : String} {region : Region}
    (he : Rule.splitHabitat spider region (.primary p) = .ok e) : ¬Closable rules e := by
  obtain ⟨_, _, inside, outside, _, _, _, hi, _, rfl⟩ := Rule.of_splitHabitat he
  intro h
  cases h with
  | trivial h => cases h
  | left _ _ hl =>
      have hn := (Primary.isTrivial_iff.1 (isTrivial_of_primary hl)).1
      obtain ⟨hs, rfl⟩ := Primary.of_withHabitat hi
      exact SortedSet.eq_empty_iff.1 hn spider ((Primary.mem_spiders_insert hs region spider).2 hs)

theorem of_moves (hd : Rule.Direct rules) (hr : rule ∈ rules) (hm : rule.Moves x x')
    (h : Closable rules x') : Closable rules x := by
  cases hm with
  | left | right => exact absurd hr hd.keep
  | habitat _ _ _ he => exact absurd h (not_splitHabitat he)
  | replace hrep =>
      cases hrep with
      | drop => exact absurd hr hd.drop
      | wrap => exact absurd h not_negation
      | swap hc => exact swap hd hr hc h
      | collapse hc => exact .left hr hc h _
      | close => exact .implication _ _

theorem moves (hd : Rule.Direct rules) (hr : rule ∈ rules) (hm : rule.Moves x x')
    (hn : x'.normalize ≠ x.normalize) (h : Closable rules x) : Closable rules x' := by
  cases hm with
  | left | right => exact absurd hr hd.keep
  | habitat hs =>
      have ht := isTrivial_of_primary h
      rw [Primary.isTrivial_of_habitat? hs] at ht
      cases ht
  | replace hrep =>
      cases hrep with
      | drop => exact absurd hr hd.drop
      | wrap => exact absurd (Diagram.normalize_negation_negation x) hn
      | swap hc => exact swap hd hr hc h
      | close => exact .trivial rfl
      | collapse hc =>
          cases h with
          | trivial h => cases h
          | implication => simp at hc
          | both hs => exact absurd hs (hd.collapse hr).2
          | left _ _ hl => exact hl

theorem of_fill (hx : Closable rules x' → Closable rules x) (h : Closable rules (K.fill x')) :
    Closable rules (K.fill x) := by
  induction K with
  | hole => exact hx h
  | negation K => exact absurd h not_negation
  | left c K r ih =>
      cases h with
      | trivial h => cases h
      | implication => exact .implication _ _
      | both hs hl hr => exact .both hs (ih hl) hr
      | left hs hc hl => exact .left hs hc (ih hl) r
  | right c l K ih =>
      cases h with
      | trivial h => cases h
      | implication => exact .implication _ _
      | both hs hl hr => exact .both hs hl (ih hr)
      | left hs hc hl => exact .left hs hc hl _

theorem of_fill_of_ne (hx : x'.normalize ≠ x.normalize → Closable rules x → Closable rules x')
    (hn : (K.fill x').normalize ≠ (K.fill x).normalize) (h : Closable rules (K.fill x)) :
    Closable rules (K.fill x') := by
  apply of_fill (hx ?_) h
  intro he
  apply hn
  clear h hn
  induction K with
  | hole => exact he
  | negation K ih => rw [Context.fill, Context.fill, Diagram.normalize, Diagram.normalize, ih]
  | left c K r ih => rw [Context.fill, Context.fill, Diagram.normalize, Diagram.normalize, ih]
  | right c l K ih => rw [Context.fill, Context.fill, Diagram.normalize, Diagram.normalize, ih]

end Closable

namespace Goals

/-- A step that changes the normal forms of the goals. -/
def Alters (rules : List Rule) (g h : Goals) : Prop :=
  Step rules g h ∧ h.normalKey ≠ g.normalKey

theorem mem_of_alters {L : List Goals}
    (hL : ∀ g ∈ L, ∀ x ∈ g.candidates rules, ∀ h ∈ (x.2.rule.apply (x.2.argument x.1) g).toOption,
      h.normalKey = g.normalKey ∨ h ∈ L)
    (hg : g ∈ L) (hs : Relation.ReflTransGen (Alters rules) g h) : h ∈ L := by
  induction hs with
  | refl => exact hg
  | tail _ hs ih =>
      obtain ⟨⟨i, c, hc, ha⟩, hne⟩ := hs
      exact (hL _ ih (i, c) hc _ (by rw [ha]; rfl)).resolve_left hne

theorem closable_of_discharged (h : ∀ e ∈ dischargeTrivial g, Closable rules e) (hd : d ∈ g) :
    Closable rules d := by
  by_cases ht : d.isTrivial = true
  · exact .trivial ht
  · exact h d (List.mem_filter.2 ⟨hd, by simp [ht]⟩)

theorem closable_of_step (hr : Rule.Direct rules) (hs : Step rules g h)
    (hh : ∀ d ∈ h, Closable rules d) : ∀ d ∈ g, Closable rules d := by
  obtain ⟨g₁, d, g₂, k, rfl, hk, rfl⟩ := step_iff.1 hs
  rw [List.forall_mem_append, List.forall_mem_append] at hh
  obtain ⟨⟨h₁, hk'⟩, h₂⟩ := hh
  have hd : Closable rules d := by
    rcases step_singleton_iff.1 hk with
      ⟨hrule, l, r, rfl, rfl⟩ | ⟨rule, hrule, K, x, x', hm, rfl, rfl⟩
    · have hl : Closable rules l := closable_of_discharged hk' (by simp)
      have hr : Closable rules r := closable_of_discharged hk' (by simp)
      exact .both hrule hl hr
    · exact .of_fill (.of_moves hr hrule hm) (closable_of_discharged hk' (by simp))
  rw [List.forall_mem_append, List.forall_mem_cons]
  exact ⟨h₁, hd, h₂⟩

/-- Backwards from the empty goals, which are closable for want of a subgoal. -/
theorem closable_of_derives (hr : Rule.Direct rules) (hd : Derives rules g []) :
    ∀ d ∈ g, Closable rules d := by
  induction hd using Relation.ReflTransGen.head_induction_on with
  | refl => exact fun d hd => absurd hd List.not_mem_nil
  | head hs _ ih => exact closable_of_step hr hs ih

theorem closable_of_alters (hr : Rule.Direct rules) (hs : Alters rules g h)
    (hg : ∀ d ∈ g, Closable rules d) : ∀ d ∈ h, Closable rules d := by
  obtain ⟨hs, hne⟩ := hs
  obtain ⟨g₁, d, g₂, k, rfl, hk, rfl⟩ := step_iff.1 hs
  rw [List.forall_mem_append, List.forall_mem_cons] at hg
  obtain ⟨h₁, hd, h₂⟩ := hg
  have hk' : ∀ e ∈ k, Closable rules e := by
    rcases step_singleton_iff.1 hk with
      ⟨hrule, l, r, rfl, rfl⟩ | ⟨rule, hrule, K, x, x', hm, rfl, rfl⟩
    · intro e he
      have he := (List.mem_filter.1 he).1
      cases hd with
      | trivial h => cases h
      | both _ hl hr =>
          rcases List.mem_pair.1 he with rfl | rfl
          · exact hl
          · exact hr
      | left hs => exact absurd hrule (hr.collapse hs).2
    · intro e he
      obtain ⟨he, ht⟩ := List.mem_filter.1 he
      obtain rfl := List.mem_singleton.1 he
      apply Closable.of_fill_of_ne (fun hn => .moves hr hrule hm hn) _ hd
      -- what is left after the move is not discharged, so its normal form stays in the key
      intro hn
      apply hne
      have hkey : dischargeTrivial [K.fill x'] = [K.fill x'] := List.filter_cons_of_pos ht
      simp [normalKey, hkey, hn]
  rw [List.forall_mem_append, List.forall_mem_append]
  exact ⟨⟨h₁, hk'⟩, h₂⟩

/-- If direct rules empty some goals, then no subgoal is hidden where steps lead that change normal
forms. -/
theorem not_hidden_of_derives (hr : Rule.Direct rules) (hd : Derives rules g [])
    (hs : Relation.ReflTransGen (Alters rules) g h) : ∀ d ∈ h, ¬d.Hidden rules := by
  have hc : ∀ d ∈ h, Closable rules d := by
    induction hs with
    | refl => exact closable_of_derives hr hd
    | tail _ hs ih => exact closable_of_alters hr hs ih
  exact fun d hd => (hc d hd).not_hidden

end Goals

end SpiderDiagrams
