import SpiderDiagrams.Proofs.Diagram.Numbering
import SpiderDiagrams.Proofs.Primary
import SpiderDiagrams.Rule.Apply

namespace SpiderDiagrams

namespace Goals

variable {g h : Goals} {t : Target} {i : Nat} {d e e' : Diagram} {ds : List Diagram}

/-- One subgoal is changed at one place. -/
def Rewritten (g h : Goals) (t : Target) (e e' : Diagram) : Prop :=
  ∃ d d', g[t.subgoal]? = some d ∧ d.sub? t.occurrence = some e ∧
    d.replaceAt? t.occurrence e' = some d' ∧ g.replaceSubgoal? t.subgoal [d'] = some h

theorem getElem?_of_subgoalAt (h : g.subgoalAt i = .ok d) : g[i]? = some d := by
  rw [subgoalAt] at h
  split at h
  · cases h
  · split at h
    next hd => cases h; exact hd
    next => cases h

theorem replaceSubgoal?_of_replaceSubgoal (hr : g.replaceSubgoal i ds = .ok h) :
    g.replaceSubgoal? i ds = some h := by
  rw [replaceSubgoal] at hr
  split at hr
  next hs => cases hr; exact hs
  next => cases hr

theorem eq_of_replaceSubgoal? (hr : g.replaceSubgoal? i ds = some h) :
    h = g.take i ++ dischargeTrivial ds ++ g.drop (i + 1) := by
  rw [replaceSubgoal?] at hr
  split at hr
  next => cases hr; rfl
  next => cases hr

theorem rewritten_of_modifyAt {f : Diagram → Except RuleError Diagram}
    (hm : g.modifyAt t f = .ok h) : ∃ e e', f e = .ok e' ∧ Rewritten g h t e e' := by
  rw [modifyAt] at hm
  cases hd : g.subgoalAt t.subgoal with
  | error => rw [hd] at hm; cases hm
  | ok d =>
      simp only [hd, bind, Except.bind] at hm
      cases hs : d.sub? t.occurrence with
      | none => simp only [hs] at hm; cases hm
      | some e =>
          simp only [hs] at hm
          cases hf : f e with
          | error => simp only [hf] at hm; cases hm
          | ok e' =>
              simp only [hf] at hm
              cases hr : d.replaceAt? t.occurrence e' with
              | none => simp only [hr] at hm; cases hm
              | some d' =>
                  simp only [hr] at hm
                  exact ⟨e, e', hf, d, d', getElem?_of_subgoalAt hd, hs, hr,
                    replaceSubgoal?_of_replaceSubgoal hm⟩

theorem subgoalAt_of_getElem? (hd : g[i]? = some d) : g.subgoalAt i = .ok d := by
  cases g with
  | nil => cases hd
  | cons => simp only [subgoalAt, List.isEmpty_cons, Bool.false_eq_true, if_false, hd]

theorem exists_replaceSubgoal? (hd : g[i]? = some d) (ds : List Diagram) :
    ∃ h, g.replaceSubgoal? i ds = some h := by
  rw [replaceSubgoal?, if_pos (List.getElem?_eq_some_iff.1 hd).1]
  exact ⟨_, rfl⟩

theorem exists_rewritten (hd : g[t.subgoal]? = some d) (hs : d.sub? t.occurrence = some e)
    (e' : Diagram) : ∃ h, g.Rewritten h t e e' := by
  obtain ⟨d', hd'⟩ := Diagram.exists_replaceAt? (Diagram.lt_size_of_sub? hs) e'
  obtain ⟨h, hh⟩ := exists_replaceSubgoal? hd [d']
  exact ⟨h, d, d', hd, hs, hd', hh⟩

theorem modifyAt_of_rewritten {f : Diagram → Except RuleError Diagram} (hf : f e = .ok e')
    (hr : g.Rewritten h t e e') : g.modifyAt t f = .ok h := by
  obtain ⟨d, d', hd, hs, hd', hh⟩ := hr
  simp only [modifyAt, subgoalAt_of_getElem? hd, hs, hf, hd', bind, Except.bind, replaceSubgoal, hh]

end Goals

namespace Rule

variable {g h : Goals} {rule : Rule} {a : Argument}

/-- The ways in which a rule leads from some goals to others. -/
inductive Applies (g : Goals) : Rule → Argument → Goals → Prop
  | split {t : Target} {l r : Diagram} {h : Goals} (ht : t.occurrence = 0)
      (hg : g[t.subgoal]? = some (.binary .conjunction l r))
      (hr : g.replaceSubgoal? t.subgoal [l, r] = some h) :
      Applies g .splitConjunction (.single t) h
  | eliminate {t kept : Target} {e e' : Diagram} {h : Goals} (ht : t.subgoal = kept.subgoal)
      (he : keepOperand (kept.occurrence - t.occurrence) e = .ok e')
      (hr : g.Rewritten h t e e') :
      Applies g .conjunctionElimination (.multiple [t, kept]) h
  | splitSpiders {t : Target} {spider : String} {region : Region} {e e' : Diagram} {h : Goals}
      (he : splitHabitat spider region e = .ok e') (hr : g.Rewritten h t e e') :
      Applies g .splitSpiders (.spiderRegion t spider region) h
  | replace {rule : Rule} {t : Target} {f : Diagram → Except Obstacle Diagram} {e e' : Diagram}
      {h : Goals} (hf : rule.replacement? = some f) (he : f e = .ok e')
      (hr : g.Rewritten h t e e') :
      Applies g rule (.single t) h

theorem applies_split {t : Target} (hs : split g t = .ok h) :
    Applies g .splitConjunction (.single t) h := by
  rw [split] at hs
  cases hd : g.subgoalAt t.subgoal with
  | error => rw [hd] at hs; cases hs
  | ok d =>
      simp only [hd, bind, Except.bind] at hs
      by_cases ht : t.occurrence = 0
      · simp only [ht, ne_eq, not_true_eq_false, if_false] at hs
        split at hs
        next l r =>
          exact .split ht (Goals.getElem?_of_subgoalAt hd)
            (Goals.replaceSubgoal?_of_replaceSubgoal hs)
        next => cases hs
      · simp only [ne_eq, ht, not_false_eq_true, if_true] at hs
        cases hs

theorem applies_eliminate {t kept : Target} (he : eliminate g t kept = .ok h) :
    Applies g .conjunctionElimination (.multiple [t, kept]) h := by
  rw [eliminate] at he
  by_cases ht : t.subgoal = kept.subgoal
  · rw [if_neg (not_not_intro ht)] at he
    obtain ⟨e, e', hk, hr⟩ := Goals.rewritten_of_modifyAt he
    exact .eliminate ht (mapError_eq_ok hk) hr
  · rw [if_pos ht] at he
    cases he

theorem applies_replace {t : Target} {f : Diagram → Except Obstacle Diagram}
    (hf : rule.replacement? = some f)
    (hm : (g.modifyAt t fun d => (f d).mapError (.notApplicable rule)) = .ok h) :
    Applies g rule (.single t) h := by
  obtain ⟨e, e', he, hr⟩ := Goals.rewritten_of_modifyAt hm
  exact .replace hf (mapError_eq_ok he) hr

theorem of_splitHabitat {spider : String} {region : Region} {e e' : Diagram}
    (he : splitHabitat spider region e = .ok e') :
    ∃ p habitat inside outside, e = .primary p ∧ p.habitat? spider = some habitat ∧
      (∀ z ∈ region, z ∈ habitat) ∧ p.withHabitat spider region = .ok inside ∧
      p.withHabitat spider (habitat.diff region) = .ok outside ∧
      e' = .binary .disjunction (.primary inside) (.primary outside) := by
  cases e with
  | null | negation | binary => cases he
  | primary p =>
      rw [splitHabitat] at he
      cases hp : p.habitat? spider with
      | none => simp only [hp] at he; cases he
      | some habitat =>
          simp only [hp] at he
          split at he
          next => cases he
          next hr =>
            have hb : region.subset habitat = true := by
              simp only [Bool.or_eq_true, Bool.not_eq_true', not_or, Bool.not_eq_false] at hr
              exact hr.1.2
            cases hi : p.withHabitat spider region with
            | error => simp only [hi] at he; cases he
            | ok inside =>
                cases ho : p.withHabitat spider (habitat.diff region) with
                | error => simp only [hi, ho] at he; cases he
                | ok outside =>
                    simp only [hi, ho] at he
                    cases he
                    exact ⟨p, habitat, inside, outside, rfl, hp, SortedSet.subset_iff.1 hb, hi,
                      ho, rfl⟩

/-- What the rules with one target do to it. -/
inductive Replaces : Rule → Diagram → Diagram → Prop
  | drop (d : Diagram) : Replaces .doubleNegationElimination (.negation (.negation d)) d
  | wrap (d : Diagram) : Replaces .doubleNegationIntroduction d (.negation (.negation d))
  | swap {c : Connective} (hc : c.isCommutative = true) (l r : Diagram) :
      Replaces .commutativity (.binary c l r) (.binary c r l)
  | collapse {c : Connective} {l r : Diagram} (hc : c = .conjunction ∨ c = .disjunction)
      (h : l.Equivalent r) : Replaces .idempotency (.binary c l r) l
  | close {l r : Diagram} (h : l.Equivalent r) :
      Replaces .trivialImplication (.binary .implication l r) .null

theorem replaces_of_replacement? {f : Diagram → Except Obstacle Diagram} {e e' : Diagram}
    (hf : rule.replacement? = some f) (he : f e = .ok e') : Replaces rule e e' := by
  cases rule with
  | conjunctionElimination | splitConjunction | splitSpiders => cases hf
  | doubleNegationElimination =>
      cases hf
      rw [dropNegations.eq_def] at he
      split at he
      next d => cases he; exact .drop _
      next => cases he
  | doubleNegationIntroduction => cases hf; cases he; exact .wrap e
  | commutativity =>
      cases hf
      rw [swapOperands.eq_def] at he
      split at he
      next c l r =>
        split at he
        next hc => cases he; exact .swap hc l r
        next => cases he
      next => cases he
  | idempotency =>
      cases hf
      rw [collapse.eq_def] at he
      split at he
      next l r =>
        split at he
        next h => cases he; exact .collapse (.inl rfl) h
        next => cases he
      next l r =>
        split at he
        next h => cases he; exact .collapse (.inr rfl) h
        next => cases he
      next => cases he
  | trivialImplication =>
      cases hf
      rw [closeImplication.eq_def] at he
      split at he
      next l r =>
        split at he
        next h => cases he; exact .close h
        next => cases he
      next => cases he

theorem of_keepOperand {n : Nat} {e e' : Diagram} (he : keepOperand n e = .ok e') :
    ∃ l r, e = .binary .conjunction l r ∧ (e' = l ∨ e' = r) := by
  rw [keepOperand.eq_def] at he
  split at he
  next l r =>
    split at he
    next => cases he; exact ⟨_, r, rfl, .inl rfl⟩
    next =>
      split at he
      next => cases he; exact ⟨l, _, rfl, .inr rfl⟩
      next => cases he
  next => cases he

theorem applies_of_apply (ha : rule.apply a g = .ok h) : Applies g rule a h := by
  unfold apply at ha
  split at ha
  next t kept => exact applies_eliminate ha
  next t => exact applies_split ha
  next t spider region =>
    obtain ⟨e, e', he, hr⟩ := Goals.rewritten_of_modifyAt ha
    exact .splitSpiders he hr
  next rule t _ =>
    split at ha
    next f hf => exact applies_replace hf ha
    next => cases ha
  next => cases ha

theorem apply_of_applies (ha : Applies g rule a h) : rule.apply a g = .ok h := by
  cases ha with
  | split ht hg hr =>
      simp only [apply, split, Goals.subgoalAt_of_getElem? hg, bind, Except.bind, ht, ne_eq,
        not_true_eq_false, if_false, Goals.replaceSubgoal, hr]
  | eliminate ht he hr =>
      rw [apply, eliminate, if_neg (not_not_intro ht)]
      apply Goals.modifyAt_of_rewritten _ hr
      rw [he]
      rfl
  | splitSpiders he hr => exact Goals.modifyAt_of_rewritten he hr
  | @replace _ t f e e' _ hf he hr =>
      have hm : (g.modifyAt t fun d => (f d).mapError (.notApplicable rule)) = .ok h := by
        apply Goals.modifyAt_of_rewritten _ hr
        rw [he]
        rfl
      cases rule with
      | conjunctionElimination | splitConjunction | splitSpiders => cases hf
      | doubleNegationElimination | doubleNegationIntroduction | commutativity | idempotency
      | trivialImplication =>
          cases hf
          exact hm

end Rule

end SpiderDiagrams
