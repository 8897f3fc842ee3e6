import SpiderDiagrams.Proofs.Moves

namespace SpiderDiagrams

variable {g h : Goals} {t : Target} {a : Argument} {d e e' : Diagram} {i : Nat}

theorem Diagram.not_isTrivial_of_sub? (hs : d.sub? i = some e) (he : e.isTrivial = false) :
    d.isTrivial = false := by
  obtain ⟨K, rfl, rfl⟩ := Context.exists_fill hs
  exact K.isTrivial_fill he

namespace Goals

/-- The argument names a double negation in one of the goals, and this is the subgoal without it. -/
def Unwraps (g : Goals) (a : Argument) (d' : Diagram) : Prop :=
  ∃ t d e, a = .single t ∧ g[t.subgoal]? = some d ∧
    d.sub? t.occurrence = some (.negation (.negation e)) ∧ d.replaceAt? t.occurrence e = some d'

theorem rewritten_back (g₁ g₂ : Goals) {K : Context} (he : (K.fill e').isTrivial = false) :
    Rewritten (g₁ ++ dischargeTrivial [K.fill e'] ++ g₂) (g₁ ++ dischargeTrivial [K.fill e] ++ g₂)
      ⟨g₁.length, K.index⟩ e' e := by
  refine rewritten_iff.2 ⟨g₁, g₂, K, rfl, ?_, rfl⟩
  rw [dischargeTrivial_singleton he, List.append_assoc]
  rfl

/-- As long as the rewritten subgoal is there, it can be written back. The one that was there before
comes back, unless it is trivial. -/
theorem Rewritten.back (hr : g.Rewritten h t e e') :
    ∃ d d', g[t.subgoal]? = some d ∧ d.sub? t.occurrence = some e ∧
      d.replaceAt? t.occurrence e' = some d' ∧
      (d'.isTrivial = false →
        (d.isTrivial = false → h.Rewritten g t e' e) ∧
        (d.isTrivial = true → h.Rewritten (g.eraseIdx t.subgoal) t e' e)) := by
  obtain ⟨g₁, g₂, K, rfl, rfl, rfl⟩ := rewritten_iff.1 hr
  refine ⟨K.fill e, K.fill e', getElem?_middle g₁ g₂ _, K.sub?_fill e, K.replaceAt?_fill e e', ?_⟩
  intro he'
  have hback := rewritten_back (e := e) g₁ g₂ he'
  constructor
  · intro he
    rwa [dischargeTrivial_singleton he, List.append_assoc g₁ [_]] at hback
  · intro he
    have hgone : dischargeTrivial [K.fill e] = [] := List.filter_cons_of_neg (by simp [he])
    have herase : (g₁ ++ K.fill e :: g₂).eraseIdx g₁.length = g₁ ++ g₂ := by
      rw [List.eraseIdx_append_of_length_le (Nat.le_refl _), Nat.sub_self]
      rfl
    rwa [hgone, List.append_nil, ← herase] at hback

theorem Rewritten.symm (hr : g.Rewritten h t e e') (he : e.isTrivial = false)
    (he' : e'.isTrivial = false) : h.Rewritten g t e' e := by
  obtain ⟨d, d', _, hs, hd', hback⟩ := hr.back
  have ht := Diagram.not_isTrivial_of_sub? hs he
  have ht' := Diagram.not_isTrivial_of_sub? (Diagram.sub?_of_replaceAt? hd') he'
  exact (hback ht').1 ht

end Goals

namespace Rule

theorem commutativity_back (ha : commutativity.apply a g = .ok h) :
    commutativity.apply a h = .ok g := by
  obtain ⟨t, e, e', rfl, hr, ht⟩ := exists_replaces_of_apply ha (Option.some_ne_none _)
  cases hr with
  | swap hc l r => exact apply_of_replaces (.swap hc r l) (ht.symm rfl rfl)

theorem doubleNegationIntroduction_back (ha : doubleNegationIntroduction.apply a g = .ok h) :
    ∃ i d, a.subgoal? = some i ∧ g[i]? = some d ∧
      (d.isTrivial = false → doubleNegationElimination.apply a h = .ok g) ∧
      (d.isTrivial = true → doubleNegationElimination.apply a h = .ok (g.eraseIdx i)) := by
  obtain ⟨t, e, e', rfl, hr, ht⟩ := exists_replaces_of_apply ha (Option.some_ne_none _)
  cases hr with
  | wrap =>
      obtain ⟨d, d', hd, _, hd', hback⟩ := ht.back
      obtain ⟨hkept, hgone⟩ :=
        hback (Diagram.not_isTrivial_of_sub? (Diagram.sub?_of_replaceAt? hd') rfl)
      refine ⟨t.subgoal, d, rfl, hd, ?_, ?_⟩
      · intro htriv
        exact apply_of_replaces (.drop e) (hkept htriv)
      · intro htriv
        exact apply_of_replaces (.drop e) (hgone htriv)

theorem doubleNegationElimination_back (ha : doubleNegationElimination.apply a g = .ok h) :
    ∃ d', g.Unwraps a d' ∧
      (d'.isTrivial = false → doubleNegationIntroduction.apply a h = .ok g) := by
  obtain ⟨t, e, e', rfl, hr, ht⟩ := exists_replaces_of_apply ha (Option.some_ne_none _)
  cases hr with
  | drop =>
      obtain ⟨d, d', hd, hs, hd', hback⟩ := ht.back
      refine ⟨d', ⟨t, d, e', rfl, hd, hs, hd'⟩, ?_⟩
      intro htriv
      have hkept := (hback htriv).1 (Diagram.not_isTrivial_of_sub? hs rfl)
      exact apply_of_replaces (.wrap e') hkept

/-- Operands that are swapped twice stand as before. A double negation that is introduced is
eliminated with the same argument, which restores the goals but for a trivial subgoal that the
argument names; one that is eliminated is introduced again, if the subgoal without it is not
trivial. -/
theorem inverse_rules_undo (g h : Goals) (a : Argument) :
    (commutativity.apply a g = .ok h → commutativity.apply a h = .ok g) ∧
      (doubleNegationIntroduction.apply a g = .ok h →
        ∃ i d, a.subgoal? = some i ∧ g[i]? = some d ∧
          (d.isTrivial = false → doubleNegationElimination.apply a h = .ok g) ∧
          (d.isTrivial = true → doubleNegationElimination.apply a h = .ok (g.eraseIdx i))) ∧
      (doubleNegationElimination.apply a g = .ok h →
        ∃ d', g.Unwraps a d' ∧
          (d'.isTrivial = false → doubleNegationIntroduction.apply a h = .ok g)) :=
  ⟨commutativity_back, doubleNegationIntroduction_back, doubleNegationElimination_back⟩

theorem inverse_rules_undo_nested :
    let d (l r : Diagram) : Diagram := .negation (.binary .equivalence l r)
    let e : Diagram := .negation .null
    let g : Goals := [.null, d .null e]
    commutativity.apply (.single ⟨1, 1⟩) g = .ok [.null, d e .null] ∧
      commutativity.apply (.single ⟨1, 1⟩) [.null, d e .null] = .ok g ∧
      doubleNegationIntroduction.apply (.single ⟨0, 0⟩) g = .ok [.negation e, d .null e] ∧
      doubleNegationElimination.apply (.single ⟨0, 0⟩) [.negation e, d .null e] =
        .ok (g.eraseIdx 0) ∧
      doubleNegationIntroduction.apply (.single ⟨1, 2⟩) g = .ok [.null, d (.negation e) e] ∧
      doubleNegationElimination.apply (.single ⟨1, 2⟩) [.null, d (.negation e) e] = .ok g ∧
      doubleNegationElimination.apply (.single ⟨0, 1⟩) [.negation (.negation e)] = .ok [e] ∧
      doubleNegationIntroduction.apply (.single ⟨0, 1⟩) [e] = .ok [.negation (.negation e)] := by
  intro d e g
  have hswap : commutativity.apply (.single ⟨1, 1⟩) g = .ok [.null, d e .null] := rfl
  have hwhole : doubleNegationIntroduction.apply (.single ⟨0, 0⟩) g =
      .ok [.negation e, d .null e] := rfl
  have hpart : doubleNegationIntroduction.apply (.single ⟨1, 2⟩) g =
      .ok [.null, d (.negation e) e] := rfl
  have hdrop : doubleNegationElimination.apply (.single ⟨0, 1⟩) [.negation (.negation e)] =
      .ok [e] := rfl
  obtain ⟨i, x, hi, hx, _, hgone⟩ := (inverse_rules_undo g _ _).2.1 hwhole
  cases hi
  cases hx
  obtain ⟨j, y, hj, hy, hkept, _⟩ := (inverse_rules_undo g _ _).2.1 hpart
  cases hj
  cases hy
  obtain ⟨z, ⟨t, w, f, ht, hw, _, hz⟩, hback⟩ := (inverse_rules_undo _ _ _).2.2 hdrop
  cases ht
  cases hw
  cases hz
  exact ⟨hswap, (inverse_rules_undo g _ _).1 hswap, hwhole, hgone rfl, hpart, hkept rfl, hdrop,
    hback rfl⟩

end Rule

end SpiderDiagrams
