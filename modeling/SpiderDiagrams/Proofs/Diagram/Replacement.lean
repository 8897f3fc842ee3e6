import SpiderDiagrams.Proofs.Diagram.Context
import SpiderDiagrams.Proofs.Diagram.Transform

namespace SpiderDiagrams

namespace Context

variable {K : Context} {e r s : Diagram} {j : Nat}

theorem index_lt_size (K : Context) (d : Diagram) : K.index < (K.fill d).size :=
  Diagram.lt_size_of_sub? (K.sub?_fill d)

theorem size_fill (K : Context) (e r : Diagram) :
    (K.fill r).size + e.size = (K.fill e).size + r.size := by
  induction K with
  | hole => exact Nat.add_comm _ _
  | negation K ih | left c K x ih | right c x K ih =>
      simp only [fill, Diagram.size]
      omega

theorem exists_succ_of_before (hs : (K.fill e).sub? j = some s) (hj : j + s.size ≤ K.index) :
    ∃ i, j = i + 1 := by
  cases j with
  | zero =>
      rw [Diagram.sub?_zero] at hs
      have hlt := K.index_lt_size e
      rw [Option.some.inj hs] at hlt
      omega
  | succ j => exact ⟨j, rfl⟩

theorem sub?_before (hs : (K.fill e).sub? j = some s) (hj : j + s.size ≤ K.index) (r : Diagram) :
    (K.fill r).sub? j = some s := by
  have hpos := s.size_pos
  induction K generalizing j with
  | hole =>
      rw [index] at hj
      omega
  | negation K ih =>
      obtain ⟨j, rfl⟩ := exists_succ_of_before hs hj
      rw [index] at hj
      exact ih hs (by omega)
  | left c K x ih =>
      obtain ⟨j, rfl⟩ := exists_succ_of_before hs hj
      have hlt := K.index_lt_size e
      have hlt' := K.index_lt_size r
      rw [index] at hj
      rw [fill, Diagram.sub?_left (by omega)] at hs
      rw [fill, Diagram.sub?_left (by omega)]
      exact ih hs (by omega)
  | right c x K ih =>
      obtain ⟨j, rfl⟩ := exists_succ_of_before hs hj
      rw [index] at hj
      rw [fill, Diagram.sub?] at hs ⊢
      by_cases hx : j < x.size
      · rw [if_pos hx] at hs ⊢
        exact hs
      · rw [if_neg hx] at hs ⊢
        exact ih hs (by omega)

theorem sub?_behind (K : Context) (e r : Diagram) (m : Nat) :
    (K.fill r).sub? (K.index + r.size + m) = (K.fill e).sub? (K.index + e.size + m) := by
  induction K with
  | hole =>
      have hnone (d : Diagram) : d.sub? (0 + d.size + m) = none :=
        Diagram.sub?_eq_none_iff.2 (by omega)
      exact (hnone r).trans (hnone e).symm
  | negation K ih =>
      have hindex (d : Diagram) : K.index + 1 + d.size + m = K.index + d.size + m + 1 := by omega
      rw [index, hindex, hindex]
      exact ih
  | left c K x ih =>
      have hindex (d : Diagram) : K.index + 1 + d.size + m = K.index + d.size + m + 1 := by omega
      have hsize := K.size_fill e r
      rw [index, hindex, hindex, fill, fill, Diagram.sub?, Diagram.sub?]
      by_cases hm : K.index + e.size + m < (K.fill e).size
      · rw [if_pos hm, if_pos (by omega)]
        exact ih
      · rw [if_neg hm, if_neg (by omega)]
        congr 1
        omega
  | right c x K ih =>
      have hindex (d : Diagram) :
          x.size + K.index + 1 + d.size + m = x.size + (K.index + d.size + m) + 1 := by omega
      rw [index, hindex, hindex, fill, fill, Diagram.sub?_right, Diagram.sub?_right]
      exact ih

end Context

namespace Diagram

variable {d d' e r s : Diagram} {i j k : Nat}

theorem lt_size_of_replaceAt? (hr : d.replaceAt? i r = some d') : i < d.size := by
  induction d generalizing i d' with
  | null | primary =>
      cases i with
      | zero => exact Nat.one_pos
      | succ i => cases hr
  | negation d ih =>
      cases i with
      | zero => exact size_pos _
      | succ i =>
          obtain ⟨x, hx, _⟩ := Option.map_eq_some_iff.1 hr
          exact Nat.succ_lt_succ (ih hx)
  | binary c l x ihl ihx =>
      cases i with
      | zero => exact size_pos _
      | succ i =>
          rw [replaceAt?] at hr
          rw [size]
          by_cases hl : i < l.size
          · omega
          · rw [if_neg hl] at hr
            obtain ⟨x', hx, _⟩ := Option.map_eq_some_iff.1 hr
            have hlt := ihx hx
            omega

theorem replaceAt?_eq_none_iff : d.replaceAt? i r = none ↔ d.size ≤ i := by
  constructor
  · intro hn
    apply Nat.le_of_not_lt
    intro hi
    obtain ⟨d', hd⟩ := exists_replaceAt? hi r
    cases hn.symm.trans hd
  · intro hi
    cases hr : d.replaceAt? i r with
    | none => rfl
    | some d' => exact absurd (lt_size_of_replaceAt? hr) (Nat.not_lt_of_le hi)

theorem replaceAt?_add (hs : d.sub? j = some s) (hk : k < s.size) (r : Diagram) :
    d.replaceAt? (j + k) r = (s.replaceAt? k r).bind (d.replaceAt? j) := by
  apply sub?_induction
    (P := fun j d => d.replaceAt? (j + k) r = (s.replaceAt? k r).bind (d.replaceAt? j)) hs
  · rw [Nat.zero_add]
    cases s.replaceAt? k r with
    | none => rfl
    | some s' => exact (replaceAt?_zero s s').symm
  · intro j d ih
    rw [Nat.add_right_comm, replaceAt?, ih]
    cases s.replaceAt? k r <;> rfl
  · intro j c l x hl ih
    have hle := add_size_le hl
    rw [Nat.add_right_comm, replaceAt?_left (by omega), ih]
    cases s.replaceAt? k r with
    | none => rfl
    | some s' => exact (replaceAt?_left (by omega) s').symm
  · intro j c l x ih
    rw [Nat.add_right_comm, Nat.add_assoc l.size, replaceAt?_right, ih]
    cases s.replaceAt? k r with
    | none => rfl
    | some s' => exact (replaceAt?_right c l x j s').symm

theorem sub?_around (hr : d.replaceAt? i r = some d') (hs : d.sub? j = some s) (hji : j ≤ i)
    (hi : i < j + s.size) : d'.sub? j = s.replaceAt? (i - j) r := by
  have hd := replaceAt?_add hs (k := i - j) (by omega) r
  rw [Nat.add_sub_cancel' hji, hr] at hd
  obtain ⟨s', hs', hd'⟩ := Option.bind_eq_some_iff.1 hd.symm
  rw [hs', sub?_of_replaceAt? hd']

theorem exists_context (hs : d.sub? i = some e) (hr : d.replaceAt? i r = some d') :
    ∃ K : Context, K.index = i ∧ K.fill e = d ∧ K.fill r = d' := by
  obtain ⟨K, rfl, rfl⟩ := Context.exists_fill hs
  rw [Context.replaceAt?_fill] at hr
  exact ⟨K, rfl, rfl, Option.some.inj hr⟩

end Diagram

/-- Puts the diagram that it holds in place of the sub-diagram with the given number, and stops. It
does not descend where this number cannot be. -/
def Visitor.replacer (target : Nat) : Visitor (Option Diagram) := fun v held =>
  if v.occurrence = target then
    match held with
    | some r => (⟨.replace r, true⟩, none)
    | none => (⟨.keep, true⟩, none)
  else if target < v.occurrence ∨ v.occurrence + v.diagram.size ≤ target then
    (⟨.keep, false⟩, held)
  else (⟨.descend, false⟩, held)

namespace Visit

variable {v : Visit} {target : Nat} {held : Option Diagram} {r d' : Diagram} {i : Nat}

theorem replacer_at (h : v.occurrence = target) :
    Visitor.replacer target v (some r) = (⟨.replace r, true⟩, none) := if_pos h

theorem replacer_elsewhere (h : target < v.occurrence ∨ v.occurrence + v.diagram.size ≤ target) :
    Visitor.replacer target v held = (⟨.keep, false⟩, held) := by
  have hpos := v.diagram.size_pos
  exact (if_neg (by omega)).trans (if_pos h)

theorem replacer_above (h : v.occurrence < target) (h' : target < v.occurrence + v.diagram.size) :
    Visitor.replacer target v held = (⟨.descend, false⟩, held) :=
  (if_neg (by omega)).trans (if_neg (by omega))

theorem walk_replacer_elsewhere
    (h : target < v.occurrence ∨ v.occurrence + v.diagram.size ≤ target) :
    v.walk (.replacer target) held = ⟨v.diagram, false, held⟩ := by
  have ha : Visitor.replacer target v held = _ := replacer_elsewhere h
  rw [walk_of_keep (by rw [ha]; exact .inl rfl), ha]

theorem walk_replacer_here (h : v.occurrence = target) (hr : v.diagram.replaceAt? 0 r = some d') :
    v.walk (.replacer target) (some r) = ⟨d', true, none⟩ := by
  have ha := replacer_at (r := r) h
  rw [Diagram.replaceAt?_zero] at hr
  cases hr
  rw [walk_of_replace (e := r) (by rw [ha]), ha]

theorem walk_replacer (ht : v.occurrence + i = target) (hr : v.diagram.replaceAt? i r = some d') :
    v.walk (.replacer target) (some r) = ⟨d', true, none⟩ := by
  have hlt := Diagram.lt_size_of_replaceAt? hr
  induction hd : v.diagram generalizing v i d' with
  | null | primary =>
      cases i with
      | zero => exact walk_replacer_here ht hr
      | succ i =>
          rw [hd] at hr
          cases hr
  | negation d ih =>
      cases i with
      | zero => exact walk_replacer_here ht hr
      | succ i =>
          have ha : Visitor.replacer target v (some r) = _ :=
            replacer_above (by omega) (by omega)
          rw [hd] at hr
          obtain ⟨x, hx, rfl⟩ := Option.map_eq_some_iff.1 hr
          have hw := ih (v := v.operand (v.occurrence + 1) 0 d)
            ((Nat.add_right_comm _ 1 i).trans ht) hx (Diagram.lt_size_of_replaceAt? hx) rfl
          rw [walk_of_negation hd (by rw [ha]) (by rw [ha]), ha, hw]
  | binary c l x ihl ihx =>
      cases i with
      | zero => exact walk_replacer_here ht hr
      | succ i =>
          have ha : Visitor.replacer target v (some r) = _ :=
            replacer_above (by omega) (by omega)
          rw [hd, Diagram.replaceAt?] at hr
          rw [walk_of_binary hd (by rw [ha]) (by rw [ha]), ha]
          by_cases hi : i < l.size
          · rw [if_pos hi] at hr
            obtain ⟨l', hl, rfl⟩ := Option.map_eq_some_iff.1 hr
            have hw := ihl (v := v.operand (v.occurrence + 1) 0 l)
              ((Nat.add_right_comm _ 1 i).trans ht) hl hi rfl
            rw [hw]
            rfl
          · rw [if_neg hi] at hr
            obtain ⟨x', hx, rfl⟩ := Option.map_eq_some_iff.1 hr
            -- the left operand ends before the number, so nothing is done there
            have hleft : (v.operand (v.occurrence + 1) 0 l).walk (.replacer target) (some r) =
                ⟨l, false, some r⟩ :=
              walk_replacer_elsewhere (.inr (show v.occurrence + 1 + l.size ≤ target by omega))
            have hw := ihx (v := v.operand (v.occurrence + 1 + l.size) 1 x)
              (show v.occurrence + 1 + l.size + (i - l.size) = target by omega) hx
              (Diagram.lt_size_of_replaceAt? hx) rfl
            rw [hleft]
            dsimp only
            rw [if_neg Bool.false_ne_true, hw]

end Visit

namespace Diagram

theorem transform_replacer {d d' r : Diagram} {i : Nat} (hr : d.replaceAt? i r = some d')
    (trackParents : Bool) : d.transform (.replacer i) trackParents (some r) = ⟨d', true, none⟩ :=
  Visit.walk_replacer (v := ⟨0, 0, d, _⟩) (Nat.zero_add i) hr

/-- A replacement fails only at a number that is not in use. Otherwise it is what the walk to this
number makes of the diagram, and the size changes as that of the part. What ends before the replaced
part stays, what holds it has the replacement made in it, the parts of the replacement follow its
number, and what is behind it moves by the change of the size. A part is replaced by itself without
effect. -/
theorem replaceAt?_renumbers (d : Diagram) (i : Nat) (r : Diagram) :
    (d.replaceAt? i r = none ↔ d.size ≤ i) ∧
      (i < d.size → ∃ e d', d.sub? i = some e ∧ d.replaceAt? i r = some d' ∧
        (∀ trackParents, (d.transform (.replacer i) trackParents (some r)).diagram = d') ∧
        d'.size = d.size - e.size + r.size ∧
        (∀ j < i, ∀ s, d.sub? j = some s → j + s.size ≤ i → d'.sub? j = some s) ∧
        (∀ j < i, ∀ s, d.sub? j = some s → i < j + s.size →
          d'.sub? j = s.replaceAt? (i - j) r) ∧
        (∀ j < r.size, d'.sub? (i + j) = r.sub? j) ∧
        (∀ j, i + e.size ≤ j → j < d.size → d'.sub? (j - e.size + r.size) = d.sub? j) ∧
        d.replaceAt? i e = some d) := by
  refine ⟨replaceAt?_eq_none_iff, ?_⟩
  intro hi
  obtain ⟨e, he⟩ := exists_sub? hi
  obtain ⟨d', hr⟩ := exists_replaceAt? hi r
  refine ⟨e, d', he, hr, fun _ => by rw [transform_replacer hr], ?_⟩
  have haround : ∀ j < i, ∀ s, d.sub? j = some s → i < j + s.size →
      d'.sub? j = s.replaceAt? (i - j) r :=
    fun j hj s hs his => sub?_around hr hs (Nat.le_of_lt hj) his
  have hinside : ∀ j < r.size, d'.sub? (i + j) = r.sub? j :=
    fun j hj => sub?_add (sub?_of_replaceAt? hr) hj
  obtain ⟨K, rfl, rfl, rfl⟩ := exists_context he hr
  refine ⟨?_, ?_, haround, hinside, ?_, K.replaceAt?_fill e e⟩
  · have hsize := K.size_fill e r
    have hle := add_size_le he
    omega
  · intro j _ s hs hj
    exact Context.sub?_before hs hj r
  · intro j hj _
    have hbehind := K.sub?_behind e r (j - (K.index + e.size))
    have hnew : K.index + r.size + (j - (K.index + e.size)) = j - e.size + r.size := by omega
    rwa [hnew, Nat.add_sub_cancel' hj] at hbehind

theorem replaceAt?_renumbers_longer :
    let e : Diagram := .negation .null
    let r : Diagram := .binary .implication .null .null
    let s : Diagram := .binary .disjunction e .null
    let d : Diagram := .binary .conjunction e s
    4 < d.size ∧ d.sub? 4 = some e ∧ ∃ d', d.replaceAt? 4 r = some d' ∧ d'.size = 7 - 2 + 3 ∧
      (d.sub? 1 = some e ∧ 1 + e.size ≤ 4 ∧ d'.sub? 1 = some e) ∧
      (d.sub? 3 = some s ∧ 4 < 3 + s.size ∧ d'.sub? 3 = s.replaceAt? (4 - 3) r) ∧
      (2 < r.size ∧ d'.sub? (4 + 2) = r.sub? 2) ∧
      4 + e.size ≤ 6 ∧ 6 < d.size ∧ d'.sub? (6 - 2 + 3) = d.sub? 6 := by
  intro e r s d
  have hi : 4 < d.size := by decide
  obtain ⟨e', d', he, hr, _, hsize, hbefore, haround, hinside, hbehind, _⟩ :=
    (replaceAt?_renumbers d 4 r).2 hi
  obtain rfl : e = e' := Option.some.inj he
  have hend : 1 + e.size ≤ 4 := by decide
  have hheld : 4 < 3 + s.size := by decide
  have hpart : 2 < r.size := by decide
  have hlast : 4 + e.size ≤ 6 := by decide
  have hrange : 6 < d.size := by decide
  exact ⟨hi, he, d', hr, hsize, ⟨rfl, hend, hbefore 1 (by decide) e rfl hend⟩,
    ⟨rfl, hheld, haround 3 (by decide) s rfl hheld⟩, ⟨hpart, hinside 2 hpart⟩, hlast, hrange,
    hbehind 6 hlast hrange⟩

end Diagram

end SpiderDiagrams
