import SpiderDiagrams.Diagram.Occurrence

namespace SpiderDiagrams.Diagram

variable {d l r : Diagram} {c : Connective}

/-- The number of sub-diagrams in a word of 64 bits, which wraps around. -/
def wordSize : Diagram → UInt64
  | null | primary _ => 1
  | negation d => d.wordSize + 1
  | binary _ l r => l.wordSize + r.wordSize + 1

def wordOffsets : Diagram → List UInt64
  | null | primary _ => []
  | negation _ => [1]
  | binary _ l _ => [1, l.wordSize + 1]

def wordSub? (d : Diagram) (i : UInt64) : Option Diagram :=
  if i = 0 then some d
  else match d with
  | null | primary _ => none
  | negation d => d.wordSub? (i - 1)
  | binary _ l r => if i - 1 < l.wordSize then l.wordSub? (i - 1) else r.wordSub? (i - 1 - l.wordSize)

def wordReplaceAt? (d : Diagram) (i : UInt64) (e : Diagram) : Option Diagram :=
  if i = 0 then some e
  else match d with
  | null | primary _ => none
  | negation d => (d.wordReplaceAt? (i - 1) e).map negation
  | binary c l r =>
    if i - 1 < l.wordSize then (l.wordReplaceAt? (i - 1) e).map (binary c · r)
    else (r.wordReplaceAt? (i - 1 - l.wordSize) e).map (binary c l)

theorem size_lt_of_negation (h : (negation d).size < UInt64.size) : d.size < UInt64.size :=
  Nat.lt_of_succ_lt h

theorem size_lt_of_binary (h : (binary c l r).size < UInt64.size) :
    l.size < UInt64.size ∧ r.size < UInt64.size := by
  rw [size] at h
  omega

theorem toNat_wordSize (h : d.size < UInt64.size) : d.wordSize.toNat = d.size := by
  induction d with
  | null | primary => rfl
  | negation d ih =>
      rw [wordSize, size, UInt64.toNat_add, ih (size_lt_of_negation h), UInt64.toNat_one]
      exact Nat.mod_eq_of_lt h
  | binary c l r ihl ihr =>
      obtain ⟨hl, hr⟩ := size_lt_of_binary h
      rw [wordSize, size, UInt64.toNat_add, UInt64.toNat_add, ihl hl, ihr hr, UInt64.toNat_one,
        Nat.mod_add_mod]
      exact Nat.mod_eq_of_lt h

theorem map_toNat_wordOffsets (h : d.size < UInt64.size) :
    d.wordOffsets.map UInt64.toNat = d.operandOffsets := by
  cases d with
  | null | primary | negation => rfl
  | binary c l r =>
      have hnext : (l.wordSize + 1).toNat = l.size + 1 := by
        rw [UInt64.toNat_add, toNat_wordSize (size_lt_of_binary h).1, UInt64.toNat_one]
        rw [size] at h
        exact Nat.mod_eq_of_lt (Nat.lt_of_le_of_lt (by omega) h)
      rw [wordOffsets, operandOffsets, List.map_cons, List.map_cons, hnext]
      rfl

theorem toNat_eq_succ {i : UInt64} (h : i ≠ 0) : i.toNat = (i - 1).toNat + 1 := by
  have hpos : 0 < i.toNat := Nat.pos_of_ne_zero fun h0 => h (UInt64.toNat_inj.1 h0)
  have hle : (1 : UInt64) ≤ i := UInt64.le_iff_toNat_le.2 hpos
  rw [UInt64.toNat_sub_of_le _ _ hle, UInt64.toNat_one]
  omega

theorem lt_wordSize_or (h : d.size < UInt64.size) (i : UInt64) :
    (i < d.wordSize ∧ i.toNat < d.size) ∨
      (¬i < d.wordSize ∧ ¬i.toNat < d.size ∧ (i - d.wordSize).toNat = i.toNat - d.size) := by
  have hd := toNat_wordSize h
  by_cases hi : i < d.wordSize
  · exact .inl ⟨hi, hd ▸ UInt64.lt_iff_toNat_lt.1 hi⟩
  · have hle : d.wordSize ≤ i := UInt64.not_lt.1 hi
    refine .inr ⟨hi, ?_, ?_⟩
    · rw [← hd]
      exact Nat.not_lt.2 (UInt64.le_iff_toNat_le.1 hle)
    · rw [UInt64.toNat_sub_of_le _ _ hle, hd]

theorem word_places_agree_zero (d : Diagram) :
    d.wordSub? 0 = d.sub? 0 ∧ ∀ e, d.wordReplaceAt? 0 e = d.replaceAt? 0 e := by
  cases d <;> exact ⟨rfl, fun _ => rfl⟩

/-- A diagram with fewer sub-diagrams than there are words is looked up and changed in the same places
by words as by natural numbers. -/
theorem word_places_agree (h : d.size < UInt64.size) (i : UInt64) :
    d.wordSub? i = d.sub? i.toNat ∧
      ∀ e, d.wordReplaceAt? i e = d.replaceAt? i.toNat e := by
  induction d generalizing i with
  | null | primary =>
      by_cases hi : i = 0
      · rw [hi]
        exact word_places_agree_zero _
      · simp only [wordSub?, wordReplaceAt?, hi, if_false, toNat_eq_succ hi]
        exact ⟨rfl, fun _ => rfl⟩
  | negation d ih =>
      by_cases hi : i = 0
      · rw [hi]
        exact word_places_agree_zero _
      · obtain ⟨hs, hr⟩ := ih (size_lt_of_negation h) (i - 1)
        simp only [wordSub?, wordReplaceAt?, hi, if_false, toNat_eq_succ hi, hs, hr]
        exact ⟨rfl, fun _ => rfl⟩
  | binary c l r ihl ihr =>
      obtain ⟨hl, hr⟩ := size_lt_of_binary h
      by_cases hi : i = 0
      · rw [hi]
        exact word_places_agree_zero _
      · simp only [wordSub?, wordReplaceAt?, hi, if_false, toNat_eq_succ hi, sub?, replaceAt?]
        rcases lt_wordSize_or hl (i - 1) with ⟨hw, hn⟩ | ⟨hw, hn, hsub⟩
        · obtain ⟨hs, hp⟩ := ihl hl (i - 1)
          simp only [hw, hn, if_true, hs, hp, implies_true, and_self]
        · obtain ⟨hs, hp⟩ := ihr hr (i - 1 - l.wordSize)
          simp only [hw, hn, if_false, hs, hp, hsub, implies_true, and_self]

end SpiderDiagrams.Diagram
