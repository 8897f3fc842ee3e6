import Mathlib.Tactic.SplitIfs
import SpiderDiagrams.Json.Reader
import SpiderDiagrams.Proofs.Primary

namespace SpiderDiagrams.Json

mutual

/-- The lengths of the strings in a value, and one more for each of them. -/
def extent : Json → Nat
  | string s => s.length + 1
  | list items => extentOfItems items
  | object members => extentOfMembers members
  | _ => 0

def extentOfItems : List Json → Nat
  | [] => 0
  | j :: js => extent j + extentOfItems js

def extentOfMembers : List (Json × Json) → Nat
  | [] => 0
  | m :: ms => extentOfMember m + extentOfMembers ms

def extentOfMember : Json × Json → Nat
  | (k, v) => extent k + extent v

end

def left (rest : Option (List Char)) : Nat := rest.elim 0 List.length

def Reading.Within (r : Reading) (n : Nat) : Prop := r.1.extent + left r.2 ≤ n

def ItemsWithin (r : List Json × Option (List Char)) (n : Nat) : Prop :=
  extentOfItems r.1 + left r.2 ≤ n

def MembersWithin (r : List (Json × Json) × Option (List Char)) (n : Nat) : Prop :=
  extentOfMembers r.1 + left r.2 ≤ n

theorem within_stop (f : TextFault) (n : Nat) : Reading.Within (stop f) n := Nat.zero_le n

theorem length_skipBlanks_le (cs : List Char) : (skipBlanks cs).length ≤ cs.length :=
  (List.dropWhile_sublist _).length_le

theorem length_pieces {cs r : List Char} {ps : List Piece} (h : pieces cs = .ok (ps, r)) :
    ps.length + r.length < cs.length := by
  fun_induction pieces cs generalizing ps r with
  | case1 | case3 | case5 | case6 | case8 | case9 => cases h
  | case2 cs => cases h; simp
  | case4 | case7 | case10 =>
      rename_i ih
      obtain ⟨⟨qs, rest⟩, hq, he⟩ := map_eq_ok h
      cases he
      have hlen := ih hq
      simp only [List.length_cons] at hlen ⊢
      omega

theorem length_assemble {ps : List Piece} {s : List Char} (h : assemble ps = .ok s) :
    s.length ≤ ps.length := by
  fun_induction assemble ps generalizing s with
  | case1 => cases h; exact Nat.le_refl 0
  | case3 | case5 | case6 => cases h
  | case2 | case4 | case7 =>
      rename_i ih
      obtain ⟨u, hu, rfl⟩ := map_eq_ok h
      have hlen := ih hu
      simp only [List.length_cons] at hlen ⊢
      omega

theorem within_stringReading (cs : List Char) : (stringReading cs).Within cs.length := by
  rw [stringReading]
  cases hp : pieces cs with
  | error f => exact within_stop f _
  | ok x =>
      obtain ⟨ps, rest⟩ := x
      have hlen := length_pieces hp
      cases ha : assemble ps with
      | error f =>
          simp only [Reading.Within, extent, left, Option.elim_some, ha]
          omega
      | ok s =>
          have hs := length_assemble ha
          simp only [Reading.Within, extent, left, Option.elim_some, String.length_ofList, ha]
          omega

theorem within_ident {j : Json} (hj : j.extent = 0) (word cs : List Char) :
    (ident word j cs).Within cs.length := by
  rw [ident]
  split
  · simp only [Reading.Within, left, hj, Option.elim_some, List.length_drop]
    omega
  · split <;> exact within_stop _ _

theorem within_digitsReading {cs : List Char} {k : List Char → List Char → Reading} {n : Nat}
    (hk : ∀ ds rest, rest.length ≤ cs.length → (k ds rest).Within n) :
    (digitsReading cs k).Within n := by
  rw [digitsReading]
  split
  · exact within_stop _ _
  · exact hk _ _ (List.dropWhile_sublist _).length_le

theorem extent_parts (p : NumberParts) (negative : Bool) : (p.json negative).extent = 0 := by
  rw [NumberParts.json]
  split <;> simp only [extent]

theorem extent_integer (whole : List Char) (negative : Bool) :
    (integer whole negative).extent = 0 := by
  rw [integer]
  split
  · simp only [extent]
  · split
    · simp only [extent]
    · exact extent_parts _ _

theorem within_number {j : Json} (hj : j.extent = 0) {rest : List Char} {n : Nat}
    (hr : rest.length ≤ n) : Reading.Within (j, some rest) n := by
  simp only [Reading.Within, left, hj, Option.elim_some]
  omega

theorem within_exponentReading (negative : Bool) (whole fraction : List Char) (mark : Char)
    (cs : List Char) :
    (exponentReading negative whole fraction mark cs).Within (cs.length + 1) := by
  have hdigits {negated : Bool} {ds : List Char} (hds : ds.length ≤ cs.length) :
      (digitsReading ds fun exponent rest =>
        (NumberParts.json ⟨whole, fraction, negated, exponent⟩ negative, some rest)).Within
        (cs.length + 1) :=
    within_digitsReading fun _ _ hr => within_number (extent_parts _ _) (by omega)
  unfold exponentReading
  split
  · split
    next ds he =>
      apply hdigits
      split at he <;> cases he <;> simp
  · exact within_number (extent_parts _ _) (Nat.le_refl _)

theorem within_afterWhole (negative : Bool) (whole cs : List Char) :
    (afterWhole negative whole cs).Within cs.length := by
  unfold afterWhole
  split
  next cs =>
    apply within_digitsReading
    intro fraction rest hr
    simp only [List.length_cons]
    cases rest with
    | nil => exact within_number (extent_parts _ _) (Nat.zero_le _)
    | cons c rest =>
        exact Nat.le_trans (within_exponentReading negative whole fraction c rest)
          (Nat.le_succ_of_le hr)
  next c cs _ =>
    split
    · exact within_exponentReading negative whole [] c cs
    · exact within_number (extent_integer _ _) (Nat.le_refl _)
  next => exact within_number (extent_integer _ _) (Nat.le_refl _)

theorem within_numberReading (negative : Bool) (cs : List Char) :
    (numberReading negative cs).Within cs.length := by
  apply within_digitsReading
  intro whole rest hr
  split
  · exact within_stop _ _
  · exact Nat.le_trans (within_afterWhole negative whole rest) hr

/-- The readers of values, items and members keep within their texts. They call each other with one
step less, so what they do with `n` steps is proved of all of them together. -/
structure Frugal (n : Nat) : Prop where
  value (cs : List Char) : (value n cs).Within cs.length
  firstItem (cs : List Char) : ItemsWithin (firstItem n cs) cs.length
  moreItems (r : Reading) : ItemsWithin (moreItems n r) (r.1.extent + left r.2)
  firstMember (cs : List Char) : MembersWithin (firstMember n cs) cs.length
  member (cs : List Char) : MembersWithin (member n cs) cs.length
  moreMembers (key : Json) (r : Reading) :
    MembersWithin (moreMembers n key r) (key.extent + (r.1.extent + left r.2))

@[simp]
theorem left_none : left none = 0 := rfl

@[simp]
theorem left_some (rest : List Char) : left (some rest) = rest.length := rfl

attribute [local simp] Reading.Within ItemsWithin MembersWithin extent extentOfItems
  extentOfMembers extentOfMember

theorem frugal_zero : Frugal 0 where
  value cs := within_stop _ _
  firstItem cs := by simp [Json.firstItem]
  moreItems r := by
    obtain ⟨j, _ | rest⟩ := r <;> simp [Json.moreItems]
  firstMember cs := by simp [Json.firstMember]
  member cs := by simp [Json.member]
  moreMembers key r := by
    obtain ⟨j, _ | rest⟩ := r <;> simp [Json.moreMembers]

theorem Frugal.succ_value {n : Nat} (h : Frugal n) (cs : List Char) :
    (Json.value (n + 1) cs).Within cs.length := by
  have hskip := length_skipBlanks_le cs
  rw [Json.value]
  cases hs : skipBlanks cs with
  | nil => exact within_stop _ _
  | cons c rest =>
      rw [hs, List.length_cons] at hskip
      have hle {r : Reading} (hr : r.Within rest.length) : r.Within cs.length :=
        Nat.le_trans hr (by omega)
      dsimp only
      split_ifs
      · exact hle (within_ident (by simp) _ _)
      · exact hle (within_ident (by simp) _ _)
      · exact hle (within_ident (by simp) _ _)
      · exact hle (within_stringReading _)
      · exact hle (by simpa using h.firstItem rest)
      · exact hle (by simpa using h.firstMember rest)
      · exact hle (within_numberReading _ _)
      · exact Nat.le_trans (within_numberReading _ _) hskip
      · exact within_stop _ _

theorem Frugal.succ_firstItem {n : Nat} (h : Frugal n) (cs : List Char) :
    ItemsWithin (Json.firstItem (n + 1) cs) cs.length := by
  have hskip := length_skipBlanks_le cs
  unfold Json.firstItem
  split
  next => simp
  next rest hs =>
    simp only [hs, List.length_cons, ItemsWithin, extentOfItems, left_some] at hskip ⊢
    omega
  next =>
    have hv := h.value (skipBlanks cs)
    have hm := h.moreItems (Json.value n (skipBlanks cs))
    simp only [ItemsWithin, Reading.Within] at hm hv ⊢
    omega

theorem Frugal.succ_moreItems {n : Nat} (h : Frugal n) (r : Reading) :
    ItemsWithin (Json.moreItems (n + 1) r) (r.1.extent + left r.2) := by
  obtain ⟨j, _ | cs⟩ := r
  · simp [Json.moreItems]
  · have hskip := length_skipBlanks_le cs
    unfold Json.moreItems
    dsimp only
    split
    next => simp
    next rest hs =>
      simp only [hs, List.length_cons, ItemsWithin, extentOfItems, left_some] at hskip ⊢
      omega
    next cs' hs =>
      have hskip' := length_skipBlanks_le cs'
      split
      next => simp
      next =>
        have hv := h.value (skipBlanks cs')
        have hm := h.moreItems (Json.value n (skipBlanks cs'))
        simp only [hs, List.length_cons, ItemsWithin, Reading.Within, extentOfItems, left_some]
          at hskip hv hm ⊢
        omega
    next => simp

theorem Frugal.succ_firstMember {n : Nat} (h : Frugal n) (cs : List Char) :
    MembersWithin (Json.firstMember (n + 1) cs) cs.length := by
  have hskip := length_skipBlanks_le cs
  unfold Json.firstMember
  split
  next => simp
  next rest hs =>
    simp only [hs, List.length_cons, MembersWithin, extentOfMembers, left_some] at hskip ⊢
    omega
  next => exact Nat.le_trans (h.member _) hskip

theorem Frugal.succ_member {n : Nat} (h : Frugal n) (cs : List Char) :
    MembersWithin (Json.member (n + 1) cs) cs.length := by
  unfold Json.member
  split
  next cs =>
    have hv := h.value ('"' :: cs)
    split
    next key hk => simpa [hk] using hv
    next key rest hk =>
      have hkey : key.extent + rest.length ≤ ('"' :: cs).length := by simpa [hk] using hv
      have hskip := length_skipBlanks_le rest
      split
      next => simpa using Nat.le_trans (Nat.le_add_right _ _) hkey
      next rest' hs =>
        have hv' := h.value rest'
        have hm := h.moreMembers key (Json.value n rest')
        simp only [hs, List.length_cons, Reading.Within, MembersWithin] at hkey hskip hv' hm ⊢
        omega
      next => simpa using Nat.le_trans (Nat.le_add_right _ _) hkey
  next => simp

theorem Frugal.succ_moreMembers {n : Nat} (h : Frugal n) (key : Json) (r : Reading) :
    MembersWithin (Json.moreMembers (n + 1) key r) (key.extent + (r.1.extent + left r.2)) := by
  obtain ⟨j, _ | cs⟩ := r
  · simp [Json.moreMembers]
  · have hskip := length_skipBlanks_le cs
    unfold Json.moreMembers
    dsimp only
    split
    next => simp
    next rest hs =>
      simp only [hs, List.length_cons, MembersWithin, extentOfMembers, extentOfMember, left_some]
      at hskip ⊢
      omega
    next cs' hs =>
      have hskip' := length_skipBlanks_le cs'
      split
      next => simp
      next => simp
      next =>
        have hm := h.member (skipBlanks cs')
        simp only [hs, List.length_cons, MembersWithin, extentOfMembers, extentOfMember, left_some]
          at hskip hm ⊢
        omega
    next => simp

theorem frugal (n : Nat) : Frugal n := by
  induction n with
  | zero => exact frugal_zero
  | succ n ih =>
      exact ⟨ih.succ_value, ih.succ_firstItem, ih.succ_moreItems, ih.succ_firstMember,
        ih.succ_member, ih.succ_moreMembers⟩

theorem extent_read_le (text : String) : (read text).1.extent ≤ text.length := by
  have h := (frugal (2 * text.toList.length + 2)).value text.toList
  have hj : (read text).1 = (value (2 * text.toList.length + 2) text.toList).1 := by
    rw [read]
    split
    next he => rw [he]
    next he => rw [he]
  rw [hj, ← String.length_toList]
  exact Nat.le_trans (Nat.le_add_right _ _) h

end SpiderDiagrams.Json
