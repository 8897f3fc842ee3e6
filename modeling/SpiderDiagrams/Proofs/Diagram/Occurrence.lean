import SpiderDiagrams.Diagram.Occurrence

namespace SpiderDiagrams.Diagram

variable {d d' e e' : Diagram} {i : Nat}

/-- What holds of a part and its replacement and passes from operands to the diagram around them
holds of the whole. -/
theorem replaceAt?_induction {P : Nat → Diagram → Diagram → Prop}
    (hs : d.sub? i = some e) (hr : d.replaceAt? i e' = some d') (root : P 0 e e')
    (neg : ∀ i d d', P i d d' → P (i + 1) (.negation d) (.negation d'))
    (left : ∀ i c l l' r, i < l.size → P i l l' → P (i + 1) (.binary c l r) (.binary c l' r))
    (right : ∀ i c l r r', P i r r' → P (i + l.size + 1) (.binary c l r) (.binary c l r')) :
    P i d d' := by
  induction d generalizing i d' with
  | null | primary =>
      cases i with
      | zero => cases hs; cases hr; exact root
      | succ i => cases hs
  | negation d ih =>
      cases i with
      | zero => cases hs; cases hr; exact root
      | succ i =>
          obtain ⟨c, hc, rfl⟩ := Option.map_eq_some_iff.1 hr
          exact neg i d c (ih hs hc)
  | binary c l r ihl ihr =>
      cases i with
      | zero => cases hs; cases hr; exact root
      | succ i =>
          rw [sub?] at hs
          rw [replaceAt?] at hr
          by_cases hi : i < l.size
          · rw [if_pos hi] at hs hr
            obtain ⟨l', hl, rfl⟩ := Option.map_eq_some_iff.1 hr
            exact left i c l l' r hi (ihl hs hl)
          · rw [if_neg hi] at hs hr
            obtain ⟨r', hr', rfl⟩ := Option.map_eq_some_iff.1 hr
            have h := right (i - l.size) c l r r' (ihr hs hr')
            rwa [Nat.sub_add_cancel (Nat.le_of_not_lt hi)] at h

def All (P : Primary → Prop) : Diagram → Prop
  | null => True
  | primary p => P p
  | negation d => d.All P
  | binary _ l r => l.All P ∧ r.All P

variable {P Q : Primary → Prop}

theorem All.imp (h : ∀ p, P p → Q p) (hd : d.All P) : d.All Q := by
  induction d with
  | null => exact trivial
  | primary p => exact h p hd
  | negation d ih => exact ih hd
  | binary c l r ihl ihr => exact ⟨ihl hd.1, ihr hd.2⟩

theorem All.of_sub? (hd : d.All P) (hs : d.sub? i = some e) : e.All P := by
  induction d generalizing i with
  | null | primary =>
      cases i with
      | zero => cases hs; exact hd
      | succ i => cases hs
  | negation d ih =>
      cases i with
      | zero => cases hs; exact hd
      | succ i => exact ih hd hs
  | binary c l r ihl ihr =>
      cases i with
      | zero => cases hs; exact hd
      | succ i =>
          rw [sub?] at hs
          split at hs
          next => exact ihl hd.1 hs
          next => exact ihr hd.2 hs

theorem All.of_replaceAt? (hd : d.All P) (he : e'.All P) (hs : d.sub? i = some e)
    (hr : d.replaceAt? i e' = some d') : d'.All P := by
  apply replaceAt?_induction (P := fun _ d d' => d.All P → d'.All P) hs hr (fun _ => he) ?_ ?_ ?_ hd
  · intro i d d' ih
    exact ih
  · intro i c l l' r _ ih h
    exact ⟨ih h.1, h.2⟩
  · intro i c l r r' ih h
    exact ⟨h.1, ih h.2⟩

end SpiderDiagrams.Diagram
