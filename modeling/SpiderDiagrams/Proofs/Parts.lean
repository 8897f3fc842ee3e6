import Mathlib.Data.List.Sort
import SpiderDiagrams.Proofs.WellFormed

namespace SpiderDiagrams

namespace SortedMap

open Std

variable {κ ν : Type} [Ord κ]

theorem mem_entries_iff [ReflOrd κ] [DecidableEq κ] {m : SortedMap κ ν} {k : κ} {v : ν} :
    (k, v) ∈ m.entries ↔ m.get? k = some v :=
  ⟨lookup_of_mem m.sorted, mem_of_lookup⟩

theorem mem_keys_iff [ReflOrd κ] [DecidableEq κ] {m : SortedMap κ ν} {k : κ} :
    k ∈ m.keys ↔ ∃ v, m.get? k = some v := by
  refine List.mem_map.trans ⟨?_, ?_⟩
  · rintro ⟨⟨j, v⟩, hm, rfl⟩
    exact ⟨v, mem_entries_iff.1 hm⟩
  · rintro ⟨v, hv⟩
    exact ⟨(k, v), mem_entries_iff.2 hv, rfl⟩

theorem eq_of_get? [TransOrd κ] [DecidableEq κ] {m n : SortedMap κ ν}
    (h : ∀ k, m.get? k = n.get? k) : m = n := by
  have : Std.Irrefl fun a b : κ × ν => compare a.1 b.1 = .lt :=
    ⟨fun a => by simp [ReflCmp.compare_self]⟩
  have : Std.Antisymm fun a b : κ × ν => compare a.1 b.1 = .lt :=
    ⟨fun _ _ hab hba => absurd hba (OrientedCmp.not_lt_of_lt hab)⟩
  apply eq_of_entries
  apply m.sorted.eq_of_mem_iff n.sorted
  rintro ⟨k, v⟩
  rw [mem_entries_iff, mem_entries_iff, h]

variable [TransOrd κ] [LawfulEqOrd κ] [DecidableEq κ]

theorem get?_foldl_insert {l : List (κ × ν)} (hl : (l.map (·.1)).Nodup) (m : SortedMap κ ν)
    (hm : ∀ e ∈ l, m.get? e.1 = none) {k : κ} {v : ν} :
    (l.foldl (fun m e => m.insert e.1 e.2) m).get? k = some v ↔ m.get? k = some v ∨ (k, v) ∈ l := by
  induction l generalizing m with
  | nil => simp
  | cons e l ih =>
      obtain ⟨hkey, hl⟩ := List.nodup_cons.1 hl
      obtain ⟨hme, hml⟩ := List.forall_mem_cons.1 hm
      have hnew : ∀ x ∈ l, (m.insert e.1 e.2).get? x.1 = none := by
        intro x hx
        have hne : x.1 ≠ e.1 := fun he => hkey (List.mem_map.2 ⟨x, hx, he⟩)
        rw [get?_insert, if_neg hne]
        exact hml x hx
      rw [List.foldl_cons, ih hl _ hnew, get?_insert, List.mem_cons, ← or_assoc]
      apply or_congr_left
      by_cases hk : k = e.1
      · subst hk
        simp [hme, Prod.ext_iff, eq_comm]
      · simp [hk, Prod.ext_iff]

theorem get?_ofList {l : List (κ × ν)} (hl : (l.map (·.1)).Nodup) {k : κ} {v : ν} :
    (ofList l).get? k = some v ↔ (k, v) ∈ l := by
  have hempty (j : κ) : (∅ : SortedMap κ ν).get? j = none := rfl
  rw [ofList, get?_foldl_insert hl ∅ fun e _ => hempty e.1, hempty]
  simp

end SortedMap

structure Parts where
  spiders : List String
  habitats : List (String × List Zone)
  shaded : List Zone

namespace Parts

variable {a b : Parts} {p q : Primary}

def build (a : Parts) : Except ConstructionError Primary :=
  Primary.ofParts a.spiders a.habitats a.shaded

def keys (a : Parts) : List String := a.habitats.map (·.1)

def Mentions (a : Parts) (z : Zone) : Prop := (∃ h ∈ a.habitats, z ∈ h.2) ∨ z ∈ a.shaded

def HasContour (a : Parts) (c : String) : Prop :=
  ∃ z, a.Mentions z ∧ (c ∈ z.inside ∨ c ∈ z.outside)

def Assigns (a : Parts) (s : String) (r : Region) : Prop :=
  ∃ h ∈ a.habitats, h.1 = s ∧ ∀ z, z ∈ r ↔ z ∈ h.2

structure WellFormed (a : Parts) : Prop where
  distinct : a.keys.Nodup
  spiders : ∀ s, s ∈ a.spiders ↔ s ∈ a.keys
  habitats : ∀ h ∈ a.habitats, h.2 ≠ []
  names : ∀ s, s ∈ a.spiders ∨ a.HasContour s → s ≠ "" ∧ '"' ∉ s.toList ∧ '\\' ∉ s.toList
  disjoint : ∀ z, a.Mentions z → ∀ c ∈ z.inside, c ∉ z.outside
  complete : ∀ z, a.Mentions z → ∀ c, (c ∈ z.inside ∨ c ∈ z.outside) ↔ a.HasContour c

/-- The diagram has the spiders, the habitats and the shaded zones of the parts, and no others. -/
structure Describes (a : Parts) (p : Primary) : Prop where
  spiders : ∀ s, s ∈ p.spiders ↔ s ∈ a.spiders
  habitats : ∀ s r, p.habitat? s = some r ↔ a.Assigns s r
  shaded : ∀ z, z ∈ p.shaded ↔ z ∈ a.shaded

/-- The same sets of spiders, of habitats and of shaded zones, in any order and with repetitions. -/
structure Same (a b : Parts) : Prop where
  spiders : ∀ s, s ∈ a.spiders ↔ s ∈ b.spiders
  habitats : ∀ s r, a.Assigns s r ↔ b.Assigns s r
  shaded : ∀ z, z ∈ a.shaded ↔ z ∈ b.shaded

def move (a : Parts) (s : String) (zones : List Zone) : Parts :=
  { a with habitats := a.habitats.map fun h => if h.1 = s then (s, zones) else h }

def assembled (a : Parts) : Primary :=
  ⟨.ofList (a.habitats.map fun h => (h.1, .ofList h.2)), .ofList a.shaded⟩

theorem habitat?_assembled (hd : a.keys.Nodup) {s : String} {r : Region} :
    a.assembled.habitat? s = some r ↔ a.Assigns s r := by
  have hkeys : (a.habitats.map fun h => (h.1, SortedSet.ofList h.2)).map (·.1) = a.keys := by
    rw [List.map_map]
    rfl
  have hget := SortedMap.get?_ofList (hkeys ▸ hd) (k := s) (v := r)
  refine hget.trans (List.mem_map.trans (exists_congr fun h => and_congr_right fun _ => ?_))
  rw [Prod.ext_iff]
  apply and_congr_right
  intro _
  constructor
  · rintro rfl z
    exact SortedSet.mem_ofList
  · intro hr
    apply SortedSet.eq_of_mem_iff
    intro z
    rw [SortedSet.mem_ofList, hr]

theorem assigns_of_mem {h : String × List Zone} (hm : h ∈ a.habitats) :
    a.Assigns h.1 (.ofList h.2) :=
  ⟨h, hm, rfl, fun _ => SortedSet.mem_ofList⟩

theorem mem_keys_iff {s : String} : s ∈ a.keys ↔ ∃ r, a.Assigns s r := by
  refine List.mem_map.trans ⟨?_, ?_⟩
  · rintro ⟨h, hm, rfl⟩
    exact ⟨_, assigns_of_mem hm⟩
  · rintro ⟨_, h, hm, rfl, _⟩
    exact ⟨h, hm, rfl⟩

theorem mem_spiders_assembled (hd : a.keys.Nodup) {s : String} :
    s ∈ a.assembled.spiders ↔ s ∈ a.keys := by
  rw [mem_keys_iff]
  exact SortedMap.mem_keys_iff.trans (exists_congr fun r => habitat?_assembled hd)

theorem build_eq_ok_iff_faultless :
    a.build = .ok p ↔
      a.keys.Nodup ∧ (∀ s ∈ a.spiders, a.assembled.spiderFault? s = none) ∧
        (∀ s ∈ a.assembled.spiders, s ∈ a.spiders) ∧ a.assembled.contourFault? = none ∧
        p = a.assembled := by
  have hnamed : (∀ s ∈ (SortedSet.ofList a.spiders).toList, a.assembled.spiderFault? s = none) ↔
      ∀ s ∈ a.spiders, a.assembled.spiderFault? s = none :=
    forall_congr' fun s => imp_congr_left SortedSet.mem_ofList
  have hstray :
      (∀ s ∈ a.assembled.spiders.toList, ¬ decide (s ∉ SortedSet.ofList a.spiders) = true) ↔
      ∀ s ∈ a.assembled.spiders, s ∈ a.spiders := by
    simp [SortedSet.mem_toList]
  have hfaults : ((firstRepeated a.keys).map ConstructionError.duplicateHabitat
      <|> (SortedSet.ofList a.spiders).toList.findSome? a.assembled.spiderFault?
      <|> (a.assembled.spiders.toList.find? (· ∉ SortedSet.ofList a.spiders)).map .unknownSpider
      <|> a.assembled.contourFault?) = none ↔ a.keys.Nodup ∧
        (∀ s ∈ a.spiders, a.assembled.spiderFault? s = none) ∧
        (∀ s ∈ a.assembled.spiders, s ∈ a.spiders) ∧ a.assembled.contourFault? = none := by
    rw [orElse_eq_none_iff, orElse_eq_none_iff, orElse_eq_none_iff, Option.map_eq_none_iff,
      Option.map_eq_none_iff, List.findSome?_eq_none_iff, List.find?_eq_none,
      firstRepeated_eq_none_iff, hnamed, hstray]
  constructor
  · intro h
    rw [build, Primary.ofParts] at h
    split at h
    next => cases h
    next hf =>
      cases h
      obtain ⟨h₁, h₂, h₃, h₄⟩ := hfaults.1 hf
      exact ⟨h₁, h₂, h₃, h₄, rfl⟩
  · rintro ⟨h₁, h₂, h₃, h₄, rfl⟩
    have hf := hfaults.2 ⟨h₁, h₂, h₃, h₄⟩
    rw [build, Primary.ofParts]
    split
    next he => cases hf.symm.trans he
    next => rfl

theorem build_eq_ok_iff_valid :
    a.build = .ok p ↔ a.keys.Nodup ∧ (∀ s, s ∈ a.spiders ↔ s ∈ a.keys) ∧ a.assembled.Valid ∧
      p = a.assembled := by
  rw [build_eq_ok_iff_faultless, Primary.valid_iff]
  apply and_congr_right
  intro hd
  have hkeys (s : String) := mem_spiders_assembled hd (s := s)
  constructor
  · rintro ⟨hspiders, hstray, hcontours, rfl⟩
    have hnamed : ∀ s ∈ a.spiders, s ∈ a.assembled.spiders := by
      intro s hs
      have hf := hspiders s hs
      rw [Primary.spiderFault?, orElse_eq_none_iff] at hf
      obtain ⟨_, hf⟩ := hf
      split at hf
      next => cases hf
      next r hr => exact SortedMap.mem_keys_iff.2 ⟨r, hr⟩
    refine ⟨?_, ⟨fun s hs => hspiders s (hstray s hs), hcontours⟩, rfl⟩
    intro s
    rw [← hkeys s]
    exact ⟨hnamed s, hstray s⟩
  · rintro ⟨hspiders, ⟨hfaults, hcontours⟩, rfl⟩
    refine ⟨?_, ?_, hcontours, rfl⟩
    · intro s hs
      exact hfaults s ((hkeys s).2 ((hspiders s).1 hs))
    · intro s hs
      exact (hspiders s).2 ((hkeys s).1 hs)

theorem describes_assembled (hd : a.keys.Nodup) (hs : ∀ s, s ∈ a.spiders ↔ s ∈ a.keys) :
    a.Describes a.assembled where
  spiders s := (mem_spiders_assembled hd).trans (hs s).symm
  habitats _ _ := habitat?_assembled hd
  shaded _ := SortedSet.mem_ofList

namespace Describes

theorem unique (hp : a.Describes p) (hq : a.Describes q) : p = q := by
  have hhabitats : p.habitats = q.habitats := by
    apply SortedMap.eq_of_get?
    intro s
    apply Option.ext
    intro r
    exact (hp.habitats s r).trans (hq.habitats s r).symm
  have hshaded : p.shaded = q.shaded :=
    SortedSet.eq_of_mem_iff fun z => (hp.shaded z).trans (hq.shaded z).symm
  cases p
  cases q
  cases hhabitats
  cases hshaded
  rfl

theorem mem_entries_iff (h : a.Describes p) {s : String} {r : Region} :
    (s, r) ∈ p.habitats.entries ↔ a.Assigns s r :=
  SortedMap.mem_entries_iff.trans (h.habitats s r)

theorem mem_zones (h : a.Describes p) {z : Zone} : z ∈ p.zones ↔ a.Mentions z := by
  rw [Primary.mem_zones, Mentions, h.shaded]
  apply or_congr_left
  constructor
  · rintro ⟨⟨s, r⟩, he, hz⟩
    obtain ⟨k, hk, _, hr⟩ := h.mem_entries_iff.1 he
    exact ⟨k, hk, (hr z).1 hz⟩
  · rintro ⟨k, hk, hz⟩
    exact ⟨_, h.mem_entries_iff.2 (assigns_of_mem hk), SortedSet.mem_ofList.2 hz⟩

theorem mem_contours (h : a.Describes p) {c : String} : c ∈ p.contours ↔ a.HasContour c := by
  rw [Primary.mem_contours]
  exact exists_congr fun z => and_congr h.mem_zones SortedSet.mem_union

theorem forall_habitats_iff (h : a.Describes p) (hs : ∀ s, s ∈ a.spiders ↔ s ∈ a.keys) :
    (∀ e ∈ p.habitats.entries, IsName e.1 ∧ e.2 ≠ ∅) ↔
      (∀ s ∈ a.spiders, IsName s) ∧ ∀ k ∈ a.habitats, k.2 ≠ [] := by
  constructor
  · intro hp
    refine ⟨?_, ?_⟩
    · intro s hm
      obtain ⟨r, hr⟩ := mem_keys_iff.1 ((hs s).1 hm)
      exact (hp (s, r) (h.mem_entries_iff.2 hr)).1
    · intro k hk hnil
      apply (hp _ (h.mem_entries_iff.2 (assigns_of_mem hk))).2
      rw [hnil]
      rfl
  · rintro ⟨hnames, hnonempty⟩ ⟨s, r⟩ he
    have hr := h.mem_entries_iff.1 he
    refine ⟨hnames s ((hs s).2 (mem_keys_iff.2 ⟨r, hr⟩)), ?_⟩
    obtain ⟨k, hk, _, hz⟩ := hr
    obtain ⟨z, hm⟩ := List.exists_mem_of_ne_nil k.2 (hnonempty k hk)
    rintro rfl
    exact SortedSet.not_mem_empty z ((hz z).2 hm)

theorem valid_iff (h : a.Describes p) (hd : a.keys.Nodup) (hs : ∀ s, s ∈ a.spiders ↔ s ∈ a.keys) :
    p.Valid ↔ a.WellFormed := by
  have hzone {z : Zone} : z.contours = p.contours ↔
      ∀ c, (c ∈ z.inside ∨ c ∈ z.outside) ↔ a.HasContour c := by
    constructor
    · intro he c
      rw [← h.mem_contours, ← he]
      exact SortedSet.mem_union.symm
    · intro hc
      apply SortedSet.eq_of_mem_iff
      intro c
      rw [h.mem_contours, ← hc]
      exact SortedSet.mem_union
  rw [Primary.valid_iff_wellFormed]
  constructor
  · rintro ⟨hhabitats, hcontours, hzones⟩
    obtain ⟨hnames, hnonempty⟩ := (h.forall_habitats_iff hs).1 hhabitats
    refine ⟨hd, hs, hnonempty, ?_, ?_, ?_⟩
    · rintro s (hm | hm)
      · exact hnames s hm
      · exact hcontours s (h.mem_contours.2 hm)
    · intro z hz
      exact (hzones z (h.mem_zones.2 hz)).1
    · intro z hz
      exact hzone.1 (hzones z (h.mem_zones.2 hz)).2
  · intro hw
    refine ⟨(h.forall_habitats_iff hs).2 ⟨fun s hm => hw.names s (.inl hm), hw.habitats⟩, ?_, ?_⟩
    · intro c hc
      exact hw.names c (.inr (h.mem_contours.1 hc))
    · intro z hz
      have hm := h.mem_zones.1 hz
      exact ⟨hw.disjoint z hm, hzone.2 (hw.complete z hm)⟩

end Describes

theorem build_eq_ok_iff : a.build = .ok p ↔ a.WellFormed ∧ a.Describes p := by
  rw [build_eq_ok_iff_valid]
  constructor
  · rintro ⟨hd, hs, hv, rfl⟩
    have h := describes_assembled hd hs
    exact ⟨(h.valid_iff hd hs).1 hv, h⟩
  · rintro ⟨hw, hp⟩
    have h := describes_assembled hw.distinct hw.spiders
    exact ⟨hw.distinct, hw.spiders, (h.valid_iff hw.distinct hw.spiders).2 hw, hp.unique h⟩

theorem exists_build_iff : (∃ p, a.build = .ok p) ↔ a.WellFormed := by
  constructor
  · rintro ⟨p, hp⟩
    exact (build_eq_ok_iff.1 hp).1
  · intro hw
    exact ⟨_, build_eq_ok_iff.2 ⟨hw, describes_assembled hw.distinct hw.spiders⟩⟩

theorem Same.describes (h : a.Same b) (hp : a.Describes p) : b.Describes p where
  spiders s := (hp.spiders s).trans (h.spiders s)
  habitats s r := (hp.habitats s r).trans (h.habitats s r)
  shaded z := (hp.shaded z).trans (h.shaded z)

theorem Same.build_eq_ok_iff (h : a.Same b) (hp : a.build = .ok p) :
    b.build = .ok p ↔ b.keys.Nodup := by
  obtain ⟨hw, ha⟩ := Parts.build_eq_ok_iff.1 hp
  have hb := h.describes ha
  have hspiders : ∀ s, s ∈ b.spiders ↔ s ∈ b.keys := by
    intro s
    rw [← h.spiders, hw.spiders, mem_keys_iff, mem_keys_iff]
    exact exists_congr (h.habitats s)
  rw [Parts.build_eq_ok_iff, and_iff_left hb]
  refine ⟨WellFormed.distinct, fun hd => ?_⟩
  exact (hb.valid_iff hd hspiders).1 ((ha.valid_iff hw.distinct hw.spiders).2 hw)

theorem keys_move (a : Parts) (s : String) (zones : List Zone) : (a.move s zones).keys = a.keys := by
  rw [keys, move, List.map_map, keys]
  apply List.map_congr_left
  intro h _
  show (if h.1 = s then (s, zones) else h).1 = h.1
  split
  next he => exact he.symm
  next => rfl

theorem assigns_move {s t : String} {r u : Region} (hs : s ∈ a.keys) :
    (a.move s r.toList).Assigns t u ↔ if t = s then u = r else a.Assigns t u := by
  have hr {v : Region} : (∀ z, z ∈ v ↔ z ∈ r.toList) ↔ v = r :=
    ⟨SortedSet.eq_of_mem_iff, fun h z => by rw [h]; rfl⟩
  have hmoved : (a.move s r.toList).Assigns t u ↔ ∃ h ∈ a.habitats,
      (if h.1 = s then s = t ∧ u = r else h.1 = t ∧ ∀ z, z ∈ u ↔ z ∈ h.2) := by
    rw [Assigns, move]
    simp only [List.mem_map, exists_exists_and_eq_and]
    apply exists_congr
    intro h
    apply and_congr_right
    intro _
    split
    next => rw [hr]
    next => rfl
  rw [hmoved]
  by_cases ht : t = s
  · subst ht
    rw [if_pos rfl]
    constructor
    · rintro ⟨h, _, hu⟩
      split at hu
      next => exact hu.2
      next hne => exact absurd hu.1 hne
    · rintro rfl
      obtain ⟨h, hm, rfl⟩ := List.mem_map.1 hs
      exact ⟨h, hm, by rw [if_pos rfl]; exact ⟨rfl, rfl⟩⟩
  · rw [if_neg ht, Assigns]
    apply exists_congr
    intro h
    apply and_congr_right
    intro _
    split
    next he =>
      refine iff_of_false (fun hu => ht hu.1.symm) ?_
      rintro ⟨hht, _⟩
      exact ht (hht.symm.trans he)
    next => rfl

end Parts

namespace Primary

theorem withHabitat_eq_ok_iff {p q : Primary} {s : String} {r : Region} :
    p.withHabitat s r = .ok q ↔ s ∈ p.spiders ∧
      ({ p with habitats := p.habitats.insert s r } : Primary).Valid ∧
      q = { p with habitats := p.habitats.insert s r } := by
  constructor
  · intro h
    obtain ⟨hs, rfl⟩ := of_withHabitat h
    refine ⟨hs, ?_, rfl⟩
    rw [withHabitat, if_pos hs] at h
    dsimp only at h
    split at h
    next => cases h
    next hf => exact hf
  · rintro ⟨hs, hv, rfl⟩
    rw [Valid] at hv
    rw [withHabitat, if_pos hs]
    simp only [hv]

end Primary

namespace Parts

variable {a : Parts} {p q : Primary} {s : String} {r : Region}

theorem Describes.move (h : a.Describes p) (hs : s ∈ a.keys) :
    (a.move s r.toList).Describes { p with habitats := p.habitats.insert s r } where
  spiders t := by
    have hp : s ∈ p.spiders := by
      obtain ⟨u, hu⟩ := mem_keys_iff.1 hs
      exact SortedMap.mem_keys_iff.2 ⟨u, (h.habitats s u).2 hu⟩
    exact (Primary.mem_spiders_insert hp r t).trans (h.spiders t)
  habitats t u := by
    rw [Primary.habitat?_insert, assigns_move hs]
    split
    next => rw [Option.some.injEq, eq_comm]
    next => exact h.habitats t u
  shaded z := h.shaded z

theorem withHabitat_eq_ok_iff (hp : a.build = .ok p) :
    p.withHabitat s r = .ok q ↔ s ∈ p.spiders ∧ (a.move s r.toList).build = .ok q := by
  obtain ⟨hw, ha⟩ := build_eq_ok_iff.1 hp
  rw [Primary.withHabitat_eq_ok_iff, build_eq_ok_iff]
  apply and_congr_right
  intro hs
  have hm := ha.move (r := r) ((hw.spiders s).1 ((ha.spiders s).1 hs))
  have hkeys := keys_move a s r.toList
  rw [hm.valid_iff (hkeys ▸ hw.distinct) (hkeys ▸ hw.spiders)]
  apply and_congr_right
  intro _
  exact ⟨fun hq => hq ▸ hm, fun hq => hq.unique hm⟩

/-- A diagram is built from parts exactly if they are well-formed. It has what the parts have, and it
is built from all lists of the same sets in which no spider is given two habitats. A spider can be
moved in it exactly if it is one of the spiders and the moved parts are well-formed again. -/
theorem built_exactly_from_wellFormed (a : Parts) :
    ((∃ p, a.build = .ok p) ↔ a.WellFormed) ∧
      ∀ p, a.build = .ok p →
        a.Describes p ∧
        (∀ b : Parts, a.Same b → (b.build = .ok p ↔ b.keys.Nodup)) ∧
        ∀ s r, ((∃ q, p.withHabitat s r = .ok q) ↔
            s ∈ p.spiders ∧ (a.move s r.toList).WellFormed) ∧
          ∀ q, p.withHabitat s r = .ok q → (a.move s r.toList).Describes q := by
  refine ⟨exists_build_iff, ?_⟩
  intro p hp
  refine ⟨(build_eq_ok_iff.1 hp).2, fun b hb => hb.build_eq_ok_iff hp, ?_⟩
  intro s r
  refine ⟨?_, ?_⟩
  · rw [← exists_build_iff, ← exists_and_left]
    exact exists_congr fun q => withHabitat_eq_ok_iff hp
  · intro q hq
    exact (build_eq_ok_iff.1 ((withHabitat_eq_ok_iff hp).1 hq).2).2

theorem built_exactly_from_wellFormed_reordered :
    let x := Zone.ofLists ["A"] ["B"]
    let y := Zone.ofLists ["B"] ["A"]
    let a : Parts := ⟨["s", "t"], [("s", [x, y]), ("t", [x])], [y]⟩
    let b : Parts := ⟨["t", "s", "t"], [("t", [x, x]), ("s", [y, x])], [y, y]⟩
    let p := a.assembled
    a.build = .ok p ∧ a.WellFormed ∧ a.Describes p ∧ a.Same b ∧ b.build = .ok p ∧
      (∃ q, p.withHabitat "t" (.ofList [y]) = .ok q ∧ (a.move "t" [y]).Describes q) ∧
      ¬ (a.move "t" [.ofLists ["A"] []]).WellFormed := by
  intro x y a b p
  have hp : a.build = .ok p := by decide +kernel
  have hsame : a.Same b := by
    refine ⟨?_, ?_, ?_⟩
    · intro s
      simp only [a, b, List.mem_cons, List.not_mem_nil, or_false]
      grind
    · intro s r
      simp [Assigns, a, b, or_comm]
    · intro z
      simp [a, b]
  obtain ⟨hw, h⟩ := built_exactly_from_wellFormed a
  obtain ⟨hd, hb, hmove⟩ := h p hp
  refine ⟨hp, hw.1 ⟨p, hp⟩, hd, hsame, (hb b hsame).2 (by decide), ?_, ?_⟩
  · let q : Primary := { p with habitats := p.habitats.insert "t" (.ofList [y]) }
    have hq : p.withHabitat "t" (.ofList [y]) = .ok q := by decide +kernel
    exact ⟨q, hq, (hmove "t" _).2 q hq⟩
  · intro hmoved
    let w := Zone.ofLists ["A"] []
    have hrefused : p.withHabitat "t" (.ofList [w]) =
        .error (.zoneNotFullySpecified w p.contours) := by decide +kernel
    obtain ⟨q, hq⟩ := (hmove "t" (.ofList [w])).1.2 ⟨by decide +kernel, hmoved⟩
    cases hrefused.symm.trans hq

end Parts

end SpiderDiagrams
