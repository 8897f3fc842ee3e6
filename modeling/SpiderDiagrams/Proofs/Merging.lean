import Mathlib.Data.List.Perm.Basic
import Mathlib.Data.Set.Defs
import SpiderDiagrams.Proofs.Moves

/-!
Goals that differ only up to normal forms. A step either keeps the normal forms of the goals, in
some order and but for null, or can be followed from any other goals with the same normal forms, as
long as these do not hide null or a conjunction below a double negation. So if each class of goals
is represented by goals without such subgoals, and steps lead from representatives only to classes
that have one, then steps lead from the goals of these classes nowhere else.
-/

namespace SpiderDiagrams

open Diagram (Congruent Solid)

variable {rules : List Rule} {rule : Rule} {g h k : Goals} {d e x x' y : Diagram}

namespace Diagram

theorem normalize_of_isTrivial (h : d.isTrivial = true) : d.normalize = .null := by
  cases d with
  | null => rfl
  | primary p => exact if_pos h
  | negation | binary => cases h

/-- A negation that stands for null, or for a conjunction where conjunctions are split. -/
def Hidden (rules : List Rule) (d : Diagram) : Prop :=
  (∃ e, d = .negation e) ∧ (d.normalize = .null ∨
    .splitConjunction ∈ rules ∧ ∃ l r, d.normalize = .binary .conjunction l r)

theorem normalize_ne_null (ht : d.isTrivial = false) (hd : ¬d.Hidden rules) :
    d.normalize ≠ .null := by
  cases d with
  | null => cases ht
  | primary p => rw [normalize_primary ht]; exact nofun
  | negation e => exact fun hn => hd ⟨⟨e, rfl⟩, .inl hn⟩
  | binary c l r => rcases normalize_binary c l r with he | ⟨_, he⟩ <;> rw [he] <;> exact nofun

end Diagram

theorem Primary.isTrivial_of_habitat? {p : Primary} {spider : String} {habitat : Region}
    (h : p.habitat? spider = some habitat) : p.isTrivial = false := by
  have hm : spider ∈ p.spiders := List.mem_map.2 ⟨_, SortedMap.mem_of_lookup h, rfl⟩
  rw [← Bool.not_eq_true, isTrivial_iff]
  rintro ⟨hs, -⟩
  exact SortedSet.eq_empty_iff.1 hs spider hm

namespace Rule

theorem valid_of_splitHabitat {spider : String} {region : Region} {e e' : Diagram}
    (he : e.Valid) (h : splitHabitat spider region e = .ok e') : e'.Valid :=
  Diagram.all_valid_iff.1
    (all_of_splitHabitat Primary.inherited_valid h (Diagram.all_valid_iff.2 he))

/-- A move keeps the class of what it changes, or is followed from the solid diagrams of the class
to the class of what it leads to. -/
theorem Moves.congruent_or_followed (hx : x.Valid) (h : rule.Moves x x') :
    Congruent x x' ∨ x.Solid ∧ ∀ y, y.Solid → Congruent x y →
      ∃ y', rule.Moves y y' ∧ Congruent x' y' := by
  cases h with
  | left _ r =>
      refine .inr ⟨trivial, ?_⟩
      intro y hy hxy
      obtain ⟨l', r', rfl, ⟨hl, _⟩ | ⟨_, hl, _⟩⟩ := Diagram.exists_binary_of_congruent hxy hy
      · exact ⟨l', .left l' r', hl⟩
      · exact ⟨r', .right l' r', hl⟩
  | right l _ =>
      refine .inr ⟨trivial, ?_⟩
      intro y hy hxy
      obtain ⟨l', r', rfl, ⟨_, hr⟩ | ⟨_, _, hr⟩⟩ := Diagram.exists_binary_of_congruent hxy hy
      · exact ⟨r', .right l' r', hr⟩
      · exact ⟨l', .left l' r', hr⟩
  | habitat hs hr hone he =>
      have hp := Primary.isTrivial_of_habitat? hs
      refine .inr ⟨hp, ?_⟩
      intro y hy hxy
      obtain rfl := Diagram.eq_primary_of_congruent hxy hp hy
      exact ⟨x', .habitat hs hr hone he, .refl (valid_of_splitHabitat hx he)⟩
  | replace hr hw =>
      cases hr with
      | drop => exact .inl (.cancel hx)
      | wrap => exact .inl (.symm (.cancel hx))
      | swap hc =>
          refine .inl (.swap ?_ hx.1 hx.2)
          rintro rfl
          cases hc
      | @collapse c _ r hc hlr =>
          refine .inr ⟨trivial, ?_⟩
          intro y hy hxy
          have hlr := (Diagram.congruent_iff hx.1 hx.2).2 hlr
          obtain ⟨l', r', rfl, ⟨hl, hr⟩ | ⟨_, hl, hr⟩⟩ := Diagram.exists_binary_of_congruent hxy hy
          · have hlr' := (hl.symm.trans hlr).trans hr
            exact ⟨l', .replace (.collapse hc (Diagram.normalize_eq_of_congruent hlr')) nofun, hl⟩
          · have hlr' := (hr.symm.trans hlr.symm).trans hl
            exact ⟨l', .replace (.collapse hc (Diagram.normalize_eq_of_congruent hlr')) nofun,
              hlr.trans hr⟩
      | close hlr =>
          refine .inr ⟨trivial, ?_⟩
          intro y hy hxy
          obtain ⟨l', r', rfl, ⟨hl, hr⟩ | ⟨hc, _⟩⟩ := Diagram.exists_binary_of_congruent hxy hy
          · have hlr' := (hl.symm.trans ((Diagram.congruent_iff hx.1 hx.2).2 hlr)).trans hr
            exact ⟨.null, .replace (.close (Diagram.normalize_eq_of_congruent hlr')) nofun,
              .refl trivial⟩
          · exact absurd rfl hc

end Rule

namespace Goals

def essence (g : Goals) : List Diagram := g.normalKey.filter (· ≠ .null)

theorem essence_append (g h : Goals) : essence (g ++ h) = g.essence ++ h.essence := by
  simp [essence, normalKey]

theorem essence_cons (d : Diagram) (g : Goals) : essence (d :: g) = essence [d] ++ g.essence :=
  essence_append [d] g

theorem essence_dischargeTrivial (g : Goals) : g.dischargeTrivial.essence = g.essence := by
  induction g with
  | nil => rfl
  | cons d g ih =>
      rw [essence_cons, ← ih]
      by_cases h : d.isTrivial = true
      · have hd : dischargeTrivial (d :: g) = dischargeTrivial g :=
          List.filter_cons_of_neg (by simp [h])
        have hn : essence [d] = [] := by
          simp [essence, normalKey, Diagram.normalize_of_isTrivial h]
        rw [hd, hn, List.nil_append]
      · have hd : dischargeTrivial (d :: g) = d :: dischargeTrivial g :=
          List.filter_cons_of_pos (by simp [h])
        rw [hd, essence_cons]

theorem essence_singleton_eq (h : d.normalize = e.normalize) : essence [d] = essence [e] := by
  simp [essence, normalKey, h]

theorem essence_singleton (h : d.normalize ≠ .null) : essence [d] = [d.normalize] := by
  simp [essence, normalKey, h]

/-- A conjunction that is not hidden is split wherever another of its class is. -/
theorem split_followed {l r : Diagram} (hl : l.Valid) (hr : r.Valid)
    (hrule : .splitConjunction ∈ rules) (he : e.Valid)
    (hn : e.normalize = (Diagram.binary .conjunction l r).normalize) (hh : ¬e.Hidden rules) :
    ∃ k, Step rules [e] k ∧ k.essence.Perm (dischargeTrivial [l, r]).essence := by
  have hb : ∃ l' r', (Diagram.binary .conjunction l r).normalize = .binary .conjunction l' r' := by
    rcases Diagram.normalize_binary .conjunction l r with h | ⟨_, h⟩ <;> exact ⟨_, _, h⟩
  have hsolid : e.Solid := by
    obtain ⟨l', r', hb⟩ := hb
    rw [hb] at hn
    cases e with
    | null => cases hn
    | primary p =>
        rw [Diagram.normalize] at hn
        split at hn <;> cases hn
    | negation e => exact hh ⟨⟨e, rfl⟩, .inr ⟨hrule, l', r', hn⟩⟩
    | binary => exact trivial
  have hc : Congruent (.binary .conjunction l r) e :=
    (Diagram.congruent_iff (a := .binary .conjunction l r) ⟨hl, hr⟩ he).2 hn.symm
  obtain ⟨l', r', rfl, hlr⟩ := Diagram.exists_binary_of_congruent hc hsolid
  refine ⟨_, step_of_conjunction hrule l' r', ?_⟩
  rw [essence_dischargeTrivial, essence_dischargeTrivial]
  rw [essence_cons l', essence_cons l]
  rcases hlr with ⟨h₁, h₂⟩ | ⟨_, h₁, h₂⟩
  · rw [essence_singleton_eq (Diagram.normalize_eq_of_congruent h₁),
      essence_singleton_eq (Diagram.normalize_eq_of_congruent h₂)]
  · rw [essence_singleton_eq (Diagram.normalize_eq_of_congruent h₁),
      essence_singleton_eq (Diagram.normalize_eq_of_congruent h₂)]
    exact List.perm_append_comm

theorem step_kept_or_followed (hd : d.Valid) (hs : Step rules [d] k) :
    k.essence.Perm (essence [d]) ∨ d.normalize ≠ .null ∧ ∀ e : Diagram, e.Valid →
      e.normalize = d.normalize → ¬e.Hidden rules →
        ∃ k', Step rules [e] k' ∧ k'.essence.Perm k.essence := by
  rcases step_singleton_iff.1 hs with ⟨hr, l, r, rfl, rfl⟩ | ⟨rule, hr, K, x, x', hm, rfl, rfl⟩
  · refine .inr ⟨?_, fun e he hn hh => split_followed hd.1 hd.2 hr he hn hh⟩
    rcases Diagram.normalize_binary .conjunction l r with h | ⟨_, h⟩ <;> rw [h] <;> exact nofun
  · have hx := Context.valid_of_fill hd
    rcases hm.congruent_or_followed hx with hc | ⟨hsolid, hfollow⟩
    · left
      rw [essence_dischargeTrivial]
      exact .of_eq (essence_singleton_eq (Diagram.normalize_eq_of_congruent (hc.fill hd)).symm)
    · right
      constructor
      -- a diagram taken for null has no solid part
      · intro hn
        have hc : Congruent (K.fill x) .null := (Diagram.congruent_iff (b := .null) hd trivial).2 hn
        obtain ⟨L, y, hL, hy, -⟩ := (Diagram.mirrored_of_congruent hc).1 K x rfl hsolid
        exact Diagram.not_solid_of_fill_eq_null hL hy
      · intro e he hn _
        have hc : Congruent (K.fill x) e := (Diagram.congruent_iff hd he).2 hn.symm
        obtain ⟨L, y, rfl, hy, hxy, hKL⟩ := (Diagram.mirrored_of_congruent hc).1 K x rfl hsolid
        obtain ⟨y', hmy, hy'⟩ := hfollow y hy hxy
        refine ⟨_, step_of_moves hr hmy L, ?_⟩
        rw [essence_dischargeTrivial, essence_dischargeTrivial]
        exact .of_eq (essence_singleton_eq (Diagram.normalize_eq_of_congruent (hKL x' y' hy')).symm)

/-- Goals that stand for their class: they are not empty, none of them is trivial or hidden, and steps
lead from them to classes in the set. -/
structure Represents (rules : List Rule) (V : Set Goals) (g : Goals) : Prop where
  ne_nil : g ≠ []
  valid : ∀ d ∈ g, d.Valid
  trivial : ∀ d ∈ g, d.isTrivial = false
  hidden : ∀ d ∈ g, ¬d.Hidden rules
  step : ∀ h, Step rules g h → h.normalKey ∈ V

theorem Represents.essence_eq {V : Set Goals} (hg : Represents rules V g) :
    g.essence = g.normalKey := by
  rw [essence, List.filter_eq_self]
  intro n hn
  obtain ⟨d, hd, rfl⟩ := List.mem_map.1 hn
  simpa using Diagram.normalize_ne_null (hg.trivial d hd) (hg.hidden d hd)

theorem essence_eq_of_normalKey_eq (h : g.normalKey = k.normalKey) : g.essence = k.essence := by
  rw [essence, essence, h]

theorem essence_perm (g₁ k g₂ : Goals) :
    (g₁ ++ k ++ g₂).essence.Perm (k.essence ++ (g₁ ++ g₂).essence) := by
  rw [essence_append, essence_append, essence_append, ← List.append_assoc]
  exact List.perm_append_comm.append_right _

theorem essence_perm_cons (g₁ g₂ : Goals) (hd : d.normalize ≠ .null) :
    (g₁ ++ d :: g₂).essence.Perm (d.normalize :: (g₁ ++ g₂).essence) := by
  have h := essence_perm g₁ [d] g₂
  rwa [essence_singleton hd, List.append_assoc] at h

theorem exists_represents_of_step {V : Set Goals}
    (hV : ∀ k ∈ V, ∃ g, g.normalKey = k ∧ Represents rules V g) {r : Goals}
    (hr : Represents rules V r) (hg : ∀ d ∈ g, d.Valid) (hp : g.essence.Perm r.essence)
    (hs : Step rules g h) : ∃ r', Represents rules V r' ∧ h.essence.Perm r'.essence := by
  obtain ⟨g₁, d, g₂, k, rfl, hk, rfl⟩ := step_iff.1 hs
  rcases step_kept_or_followed (hg d (by simp)) hk with hkept | ⟨hne, hfollow⟩
  -- a step within the class needs no step from the representative
  · have hd := (essence_perm g₁ k g₂).trans (hkept.append_right _)
    refine ⟨r, hr, (hd.trans (essence_perm g₁ [d] g₂).symm).trans ?_⟩
    rwa [List.append_assoc]
  -- any other is taken from the subgoal of the representative with the same normal form
  · have hd := (essence_perm_cons g₁ g₂ hne).symm.trans hp
    have hmem : d.normalize ∈ r.normalKey := hr.essence_eq ▸ hd.subset List.mem_cons_self
    obtain ⟨e, he, hn⟩ := List.mem_map.1 hmem
    obtain ⟨r₁, r₂, rfl⟩ := List.append_of_mem he
    obtain ⟨k', hk', hkk⟩ := hfollow e (hr.valid e he) hn (hr.hidden e he)
    obtain ⟨r', hkey, hr'⟩ := hV _ (hr.step _ (step_iff.2 ⟨r₁, e, r₂, k', rfl, hk', rfl⟩))
    have hrest : (essence (g₁ ++ g₂)).Perm (essence (r₁ ++ r₂)) := by
      have hr := hd.trans (essence_perm_cons r₁ r₂ (hn ▸ hne))
      rw [hn] at hr
      exact hr.cons_inv
    refine ⟨r', hr', ?_⟩
    rw [essence_eq_of_normalKey_eq hkey]
    exact ((essence_perm g₁ k g₂).trans (hkk.symm.append hrest)).trans (essence_perm r₁ k' r₂).symm

theorem not_derives_of_represents {V : Set Goals}
    (hV : ∀ k ∈ V, ∃ g, g.normalKey = k ∧ Represents rules V g) (hg : ∀ d ∈ g, d.Valid)
    (hk : g.normalKey ∈ V) : ¬Derives rules g [] := by
  have hinv {h : Goals} (hd : Derives rules g h) :
      (∀ d ∈ h, d.Valid) ∧ ∃ r, Represents rules V r ∧ h.essence.Perm r.essence := by
    induction hd with
    | refl =>
        obtain ⟨r, hkey, hr⟩ := hV _ hk
        exact ⟨hg, r, hr, .of_eq (essence_eq_of_normalKey_eq hkey.symm)⟩
    | tail _ hs ih =>
        obtain ⟨hv, r, hr, hp⟩ := ih
        obtain ⟨_, _, _, ha⟩ := id hs
        exact ⟨valid_of_apply hv ha, exists_represents_of_step hV hr hv hp hs⟩
  intro hd
  obtain ⟨_, r, hr, hp⟩ := hinv hd
  rw [hr.essence_eq] at hp
  exact hr.ne_nil (List.map_eq_nil_iff.1 hp.symm.eq_nil)

end Goals

end SpiderDiagrams
