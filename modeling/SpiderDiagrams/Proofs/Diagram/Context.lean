import SpiderDiagrams.Proofs.Diagram.NormalForm
import SpiderDiagrams.Proofs.Diagram.Numbering

namespace SpiderDiagrams

/-- A diagram with a hole. -/
inductive Context where
  | hole
  | negation (K : Context)
  | left (c : Connective) (K : Context) (r : Diagram)
  | right (c : Connective) (l : Diagram) (K : Context)

namespace Context

variable {K : Context} {d x y : Diagram}

def fill : Context → Diagram → Diagram
  | hole, d => d
  | negation K, d => .negation (K.fill d)
  | left c K r, d => .binary c (K.fill d) r
  | right c l K, d => .binary c l (K.fill d)

def index : Context → Nat
  | hole => 0
  | negation K => K.index + 1
  | left _ K _ => K.index + 1
  | right _ l K => l.size + K.index + 1

theorem sub?_fill (K : Context) (d : Diagram) : (K.fill d).sub? K.index = some d := by
  induction K with
  | hole => exact d.sub?_zero
  | negation K ih => exact ih
  | left c K r ih => exact (Diagram.sub?_left (Diagram.lt_size_of_sub? ih)).trans ih
  | right c l K ih => exact (Diagram.sub?_right c l _ _).trans ih

theorem replaceAt?_fill (K : Context) (d e : Diagram) :
    (K.fill d).replaceAt? K.index e = some (K.fill e) := by
  induction K with
  | hole => exact Diagram.replaceAt?_zero d e
  | negation K ih =>
      rw [fill, index, Diagram.replaceAt?, ih]
      rfl
  | left c K r ih =>
      rw [fill, index, Diagram.replaceAt?_left (Diagram.lt_size_of_sub? (K.sub?_fill d)), ih]
      rfl
  | right c l K ih =>
      rw [fill, index, Diagram.replaceAt?_right, ih]
      rfl

theorem exists_fill {i : Nat} (h : d.sub? i = some x) :
    ∃ K : Context, K.index = i ∧ K.fill x = d := by
  apply Diagram.sub?_induction (P := fun i d => ∃ K : Context, K.index = i ∧ K.fill x = d) h
  · exact ⟨.hole, rfl, rfl⟩
  · rintro i d ⟨K, rfl, rfl⟩
    exact ⟨.negation K, rfl, rfl⟩
  · rintro i c l r _ ⟨K, rfl, rfl⟩
    exact ⟨.left c K r, rfl, rfl⟩
  · rintro i c l r ⟨K, rfl, rfl⟩
    exact ⟨.right c l K, rfl, rfl⟩

theorem valid_of_fill (h : (K.fill x).Valid) : x.Valid := by
  induction K with
  | hole => exact h
  | negation K ih => exact ih h
  | left c K r ih => exact ih h.1
  | right c l K ih => exact ih h.2

theorem valid_fill (h : (K.fill x).Valid) (hy : y.Valid) : (K.fill y).Valid := by
  induction K with
  | hole => exact hy
  | negation K ih => exact ih h
  | left c K r ih => exact ⟨ih h.1, h.2⟩
  | right c l K ih => exact ⟨h.1, ih h.2⟩

end Context

namespace Diagram

variable {a b l r x y : Diagram} {c : Connective}

theorem Congruent.valid (h : Congruent a b) : a.Valid ∧ b.Valid := by
  induction h with
  | refl hd => exact ⟨hd, hd⟩
  | symm _ ih => exact ih.symm
  | trans _ _ ih ih' => exact ⟨ih.1, ih'.2⟩
  | negation _ ih => exact ih
  | binary c _ _ iha ihb => exact ⟨⟨iha.1, ihb.1⟩, iha.2, ihb.2⟩
  | empty hp _ _ => exact ⟨hp, trivial⟩
  | cancel hd => exact ⟨hd, hd⟩
  | swap _ hl hr => exact ⟨⟨hl, hr⟩, hr, hl⟩

theorem Congruent.fill {K : Context} (h : (K.fill x).Valid) (hxy : Congruent x y) :
    Congruent (K.fill x) (K.fill y) := by
  induction K with
  | hole => exact hxy
  | negation K ih => exact .negation (ih h)
  | left c K r ih => exact .binary c (ih h.1) (.refl h.2)
  | right c l K ih => exact .binary c (.refl h.1) (ih h.2)

/-- The diagrams whose normal form is made in the same way as they are: neither negations nor null
under another name. -/
def Solid : Diagram → Prop
  | null | negation _ => False
  | primary p => p.isTrivial = false
  | binary _ _ _ => True

/-- Solid parts of the first diagram have counterparts in the second. -/
def Mirrored (a b : Diagram) : Prop :=
  ∀ (K : Context) x, K.fill x = a → x.Solid →
    ∃ (L : Context) (y : Diagram), L.fill y = b ∧ y.Solid ∧ Congruent x y ∧
      ∀ x' y', Congruent x' y' → Congruent (K.fill x') (L.fill y')

theorem Mirrored.refl (hd : a.Valid) : Mirrored a a := by
  rintro K x rfl hx
  refine ⟨K, x, rfl, hx, .refl (Context.valid_of_fill hd), ?_⟩
  intro x' y' h
  exact h.fill (Context.valid_fill hd h.valid.1)

theorem Mirrored.trans {d : Diagram} (hab : Mirrored a b) (hbd : Mirrored b d) : Mirrored a d := by
  intro K x hK hx
  obtain ⟨L, y, hL, hy, hxy, hKL⟩ := hab K x hK hx
  obtain ⟨M, z, hM, hz, hyz, hLM⟩ := hbd L y hL hy
  refine ⟨M, z, hM, hz, hxy.trans hyz, ?_⟩
  intro x' z' h
  exact (hKL x' z' h).trans (hLM z' z' (.refl h.valid.2))

theorem Mirrored.negation (h : Mirrored a b) : Mirrored (.negation a) (.negation b) := by
  intro K x hK hx
  cases K with
  | hole => cases hK; cases hx
  | left | right => cases hK
  | negation K =>
      obtain ⟨L, y, rfl, hy, hxy, hKL⟩ := h K x (Diagram.negation.inj hK) hx
      exact ⟨.negation L, y, rfl, hy, hxy, fun x' y' h' => .negation (hKL x' y' h')⟩

theorem Mirrored.binary {a' b' : Diagram} (ha : Mirrored a a') (hb : Mirrored b b')
    (haa : Congruent a a') (hbb : Congruent b b') :
    Mirrored (.binary c a b) (.binary c a' b') := by
  intro K x hK hx
  cases K with
  | hole =>
      cases hK
      exact ⟨.hole, _, rfl, trivial, .binary c haa hbb, fun _ _ h => h⟩
  | negation => cases hK
  | left _ K _ =>
      cases hK
      obtain ⟨L, y, rfl, hy, hxy, hKL⟩ := ha K x rfl hx
      exact ⟨.left c L b', y, rfl, hy, hxy, fun x' y' h => .binary c (hKL x' y' h) hbb⟩
  | right _ _ K =>
      cases hK
      obtain ⟨L, y, rfl, hy, hxy, hKL⟩ := hb K x rfl hx
      exact ⟨.right c a' L, y, rfl, hy, hxy, fun x' y' h => .binary c haa (hKL x' y' h)⟩

theorem Mirrored.swap (hc : c ≠ .implication) (hl : l.Valid) (hr : r.Valid) :
    Mirrored (.binary c l r) (.binary c r l) := by
  intro K x hK hx
  cases K with
  | hole =>
      cases hK
      exact ⟨.hole, _, rfl, trivial, .swap hc hl hr, fun _ _ h => h⟩
  | negation => cases hK
  | left _ K _ =>
      cases hK
      refine ⟨.right c r K, x, rfl, hx, .refl (Context.valid_of_fill hl), ?_⟩
      intro x' y' h
      have hv := Context.valid_fill hl h.valid.1
      exact .trans (.swap hc hv hr) (.binary c (.refl hr) (h.fill hv))
  | right _ _ K =>
      cases hK
      refine ⟨.left c K l, x, rfl, hx, .refl (Context.valid_of_fill hr), ?_⟩
      intro x' y' h
      have hv := Context.valid_fill hr h.valid.1
      exact .trans (.swap hc hl hv) (.binary c (h.fill hv) (.refl hl))

theorem Mirrored.cancel (hd : a.Valid) : Mirrored (.negation (.negation a)) a := by
  intro K x hK hx
  cases K with
  | hole => cases hK; cases hx
  | left | right => cases hK
  | negation K =>
      cases K with
      | hole => cases hK; cases hx
      | left | right => cases hK
      | negation K =>
          cases hK
          refine ⟨K, x, rfl, hx, .refl (Context.valid_of_fill hd), ?_⟩
          intro x' y' h
          have hv := Context.valid_fill hd h.valid.1
          exact .trans (.cancel hv) (h.fill hv)

theorem Mirrored.wrap (hd : a.Valid) : Mirrored a (.negation (.negation a)) := by
  rintro K x rfl hx
  refine ⟨.negation (.negation K), x, rfl, hx, .refl (Context.valid_of_fill hd), ?_⟩
  intro x' y' h
  have hv := Context.valid_fill hd h.valid.1
  exact .trans (h.fill hv) (.symm (.cancel (h.fill hv).valid.2))

theorem Mirrored.of_forall_not_solid (h : ∀ (K : Context) x, K.fill x = a → ¬x.Solid) :
    Mirrored a b :=
  fun K x hK hx => absurd hx (h K x hK)

theorem not_solid_of_fill_eq_null {K : Context} (h : K.fill x = null) : ¬x.Solid := by
  cases K with
  | hole => cases h; exact id
  | negation | left | right => cases h

theorem not_solid_of_fill_eq_primary {p : Primary} (hp : p.isTrivial = true) {K : Context}
    (h : K.fill x = primary p) : ¬x.Solid := by
  cases K with
  | hole =>
      cases h
      intro hx
      rw [Solid, hp] at hx
      cases hx
  | negation | left | right => cases h

/-- Both directions at once, since each law is used in both. -/
theorem mirrored_of_congruent (h : Congruent a b) : Mirrored a b ∧ Mirrored b a := by
  induction h with
  | refl hd => exact ⟨.refl hd, .refl hd⟩
  | symm _ ih => exact ih.symm
  | trans _ _ ih ih' => exact ⟨ih.1.trans ih'.1, ih'.2.trans ih.2⟩
  | negation _ ih => exact ⟨ih.1.negation, ih.2.negation⟩
  | binary c ha hb iha ihb =>
      exact ⟨iha.1.binary ihb.1 ha hb, iha.2.binary ihb.2 ha.symm hb.symm⟩
  | empty _ hs hz =>
      have hp := Primary.isTrivial_iff.2 ⟨hs, hz⟩
      exact ⟨.of_forall_not_solid fun _ _ => not_solid_of_fill_eq_primary hp,
        .of_forall_not_solid fun _ _ => not_solid_of_fill_eq_null⟩
  | cancel hd => exact ⟨.cancel hd, .wrap hd⟩
  | swap hc hl hr => exact ⟨.swap hc hl hr, .swap hc hr hl⟩

theorem normalize_binary (c : Connective) (l r : Diagram) :
    (binary c l r).normalize = .binary c l.normalize r.normalize ∨
      c ≠ .implication ∧ (binary c l r).normalize = .binary c r.normalize l.normalize := by
  rw [normalize]
  by_cases h : c.isCommutative = true ∧ r.normalize.text < l.normalize.text
  · refine .inr ⟨?_, if_pos h⟩
    rintro rfl
    cases h.1
  · exact .inl (if_neg h)

theorem normalize_primary {p : Primary} (hp : p.isTrivial = false) :
    (primary p).normalize = .primary p := by
  rw [normalize, hp]
  rfl

theorem eq_primary_of_congruent {p : Primary} (h : Congruent (.primary p) y)
    (hp : p.isTrivial = false) (hy : y.Solid) : y = .primary p := by
  have hn := normalize_eq_of_congruent h
  rw [normalize_primary hp] at hn
  cases y with
  | null | negation => cases hy
  | primary q =>
      rw [normalize_primary hy] at hn
      exact hn.symm
  | binary c l r =>
      rcases normalize_binary c l r with he | ⟨_, he⟩ <;> rw [he] at hn <;> cases hn

theorem exists_binary_of_congruent (h : Congruent (.binary c l r) y) (hy : y.Solid) :
    ∃ l' r', y = .binary c l' r' ∧ (Congruent l l' ∧ Congruent r r' ∨
      c ≠ .implication ∧ Congruent l r' ∧ Congruent r l') := by
  have hn := normalize_eq_of_congruent h
  obtain ⟨⟨hl, hr⟩, hv⟩ := h.valid
  cases y with
  | null | negation => cases hy
  | primary q =>
      rw [normalize_primary hy] at hn
      rcases normalize_binary c l r with he | ⟨_, he⟩ <;> rw [he] at hn <;> cases hn
  | binary c' l' r' =>
      have hcong {a b : Diagram} (ha : a.Valid) (hb : b.Valid) (he : a.normalize = b.normalize) :
          Congruent a b := (congruent_iff ha hb).2 he
      rcases normalize_binary c l r with he | ⟨hc, he⟩ <;>
        rcases normalize_binary c' l' r' with he' | ⟨hc', he'⟩ <;> rw [he, he'] at hn <;>
        obtain ⟨rfl, h₁, h₂⟩ := Diagram.binary.inj hn
      · exact ⟨l', r', rfl, .inl ⟨hcong hl hv.1 h₁, hcong hr hv.2 h₂⟩⟩
      · exact ⟨l', r', rfl, .inr ⟨hc', hcong hl hv.2 h₁, hcong hr hv.1 h₂⟩⟩
      · exact ⟨l', r', rfl, .inr ⟨hc, hcong hl hv.2 h₂, hcong hr hv.1 h₁⟩⟩
      · exact ⟨l', r', rfl, .inl ⟨hcong hl hv.1 h₂, hcong hr hv.2 h₁⟩⟩

end Diagram

end SpiderDiagrams
