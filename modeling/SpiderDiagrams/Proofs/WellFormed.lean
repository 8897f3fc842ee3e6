import Mathlib.Data.List.Basic
import SpiderDiagrams.Proofs.Primary

namespace SpiderDiagrams

namespace SortedSet

variable {α : Type} [Ord α] [DecidableEq α] {s t : SortedSet α}

theorem size_add_size_diff [Std.TransOrd α] (h : ∀ a ∈ t, a ∈ s) :
    t.size + (s.diff t).size = s.size := by
  have hinter : s.inter t = t := by
    apply eq_of_mem_iff
    intro a
    rw [mem_inter]
    exact ⟨And.right, fun ha => ⟨h a ha, ha⟩⟩
  have hsize : s.size = (s.inter t).size + (s.diff t).size := by
    have hlength := List.length_eq_length_filter_add (l := s.toList) (fun a => decide (a ∈ t))
    simp only [← decide_not] at hlength
    exact hlength
  rw [hsize, hinter]

theorem eq_of_size_eq [Std.TransOrd α] (h : ∀ a ∈ t, a ∈ s) (hsize : t.size = s.size) : t = s := by
  have hdiff : (s.diff t).size = 0 := by
    have := size_add_size_diff h
    omega
  apply eq_of_mem_iff
  intro a
  refine ⟨h a, fun ha => ?_⟩
  by_cases hat : a ∈ t
  · exact hat
  · have hm : a ∈ (s.diff t).toList := mem_diff.2 ⟨ha, hat⟩
    rw [List.length_eq_zero_iff.1 hdiff] at hm
    cases hm

end SortedSet

namespace Primary

variable {p : Primary} {s : String} {habitat region : Region}

theorem mem_contours {c : String} : c ∈ p.contours ↔ ∃ z ∈ p.zones, c ∈ z.contours := by
  rw [contours, SortedSet.mem_ofList, List.mem_flatMap]
  simp only [List.mem_append, Zone.contours, SortedSet.mem_union]
  rfl

structure WellFormed (p : Primary) : Prop where
  habitats : ∀ e ∈ p.habitats.entries, IsName e.1 ∧ e.2 ≠ ∅
  contours : ∀ c ∈ p.contours, IsName c
  zones : ∀ z ∈ p.zones, (∀ c ∈ z.inside, c ∉ z.outside) ∧ z.contours = p.contours

theorem zoneFault?_eq_none_iff {z : Zone} (hz : z ∈ p.zones) :
    zoneFault? p.contours z = none ↔
      (∀ c ∈ z.inside, c ∉ z.outside) ∧ z.contours = p.contours := by
  have hoverlap : z.overlapping.isEmpty = true ↔ ∀ c ∈ z.inside, c ∉ z.outside := by
    rw [SortedSet.isEmpty_iff, SortedSet.eq_empty_iff]
    simp [Zone.overlapping]
  have hcontours : z.contours.size = p.contours.size ↔ z.contours = p.contours :=
    ⟨SortedSet.eq_of_size_eq fun c hc => mem_contours.2 ⟨z, hz, hc⟩, congrArg SortedSet.size⟩
  rw [← hoverlap, ← hcontours, zoneFault?]
  split
  next h => simp_all
  next h => split <;> simp_all

theorem spiderFault?_eq_none_iff {e : String × Region} (he : e ∈ p.habitats.entries) :
    p.spiderFault? e.1 = none ↔ IsName e.1 ∧ e.2 ≠ ∅ := by
  have hp : p.habitat? e.1 = some e.2 := SortedMap.lookup_of_mem p.habitats.sorted he
  rw [spiderFault?, orElse_eq_none_iff, nameFault?_eq_none_iff, hp]
  apply and_congr_right'
  rw [Ne, ← SortedSet.isEmpty_iff]
  dsimp only
  split <;> simp_all

theorem valid_iff_wellFormed : p.Valid ↔ p.WellFormed := by
  have hspiders : (∀ s ∈ p.spiders, p.spiderFault? s = none) ↔
      ∀ e ∈ p.habitats.entries, IsName e.1 ∧ e.2 ≠ ∅ := by
    refine List.forall_mem_map.trans (forall₂_congr fun e he => ?_)
    exact spiderFault?_eq_none_iff he
  have hzones : (∀ z ∈ p.zones, zoneFault? p.contours z = none) ↔
      ∀ z ∈ p.zones, (∀ c ∈ z.inside, c ∉ z.outside) ∧ z.contours = p.contours :=
    forall₂_congr fun z hz => zoneFault?_eq_none_iff hz
  have hnames : (∀ c ∈ p.contours.toList, nameFault? c = none) ↔ ∀ c ∈ p.contours, IsName c :=
    forall₂_congr fun c _ => nameFault?_eq_none_iff
  rw [valid_iff, hspiders, contourFault?, orElse_eq_none_iff, List.findSome?_eq_none_iff,
    List.findSome?_eq_none_iff, hnames, hzones]
  exact ⟨fun h => ⟨h.1, h.2.1, h.2.2⟩, fun h => ⟨h.habitats, h.contours, h.zones⟩⟩

theorem zones_shrink (hs : p.habitat? s = some habitat) (hr : ∀ z ∈ region, z ∈ habitat) :
    ∀ z ∈ ({ p with habitats := p.habitats.insert s region } : Primary).zones, z ∈ p.zones := by
  intro z hz
  rcases mem_zones.1 hz with ⟨e, he, hze⟩ | hz
  · rcases SortedMap.mem_of_mem_place he with rfl | he
    · exact mem_zones.2 (.inl ⟨_, SortedMap.mem_of_lookup hs, hr z hze⟩)
    · exact mem_zones.2 (.inl ⟨e, he, hze⟩)
  · exact mem_zones.2 (.inr hz)

theorem WellFormed.contours_shrink (hp : p.WellFormed) (hs : p.habitat? s = some habitat)
    (hne : region ≠ ∅) (hr : ∀ z ∈ region, z ∈ habitat) :
    ({ p with habitats := p.habitats.insert s region } : Primary).contours = p.contours := by
  apply SortedSet.eq_of_mem_iff
  intro c
  constructor
  · intro hc
    obtain ⟨z, hz, hcz⟩ := mem_contours.1 hc
    exact mem_contours.2 ⟨z, zones_shrink hs hr z hz, hcz⟩
  · intro hc
    obtain ⟨z, hz⟩ : ∃ z, z ∈ region := by
      by_contra h
      exact hne (SortedSet.eq_empty_iff.2 fun z hz => h ⟨z, hz⟩)
    have hzone : z ∈ ({ p with habitats := p.habitats.insert s region } : Primary).zones :=
      mem_zones.2 (.inl ⟨_, SortedMap.mem_place_self s region p.habitats.entries, hz⟩)
    rw [← (hp.zones z (zones_shrink hs hr z hzone)).2] at hc
    exact mem_contours.2 ⟨z, hzone, hc⟩

theorem WellFormed.shrink (hp : p.WellFormed) (hs : p.habitat? s = some habitat)
    (hne : region ≠ ∅) (hr : ∀ z ∈ region, z ∈ habitat) :
    ({ p with habitats := p.habitats.insert s region } : Primary).WellFormed := by
  have hcontours := hp.contours_shrink hs hne hr
  refine ⟨?_, ?_, ?_⟩
  · intro e he
    rcases SortedMap.mem_of_mem_place he with rfl | he
    · exact ⟨(hp.habitats _ (SortedMap.mem_of_lookup hs)).1, hne⟩
    · exact hp.habitats e he
  · rw [hcontours]
    exact hp.contours
  · intro z hz
    rw [hcontours]
    exact hp.zones z (zones_shrink hs hr z hz)

theorem withHabitat_of_subset (hp : p.Valid) (hs : p.habitat? s = some habitat)
    (hne : region ≠ ∅) (hr : ∀ z ∈ region, z ∈ habitat) :
    p.withHabitat s region = .ok { p with habitats := p.habitats.insert s region } := by
  have hspider : s ∈ p.spiders := List.mem_map.2 ⟨_, SortedMap.mem_of_lookup hs, rfl⟩
  have hvalid := valid_iff_wellFormed.2 ((valid_iff_wellFormed.1 hp).shrink hs hne hr)
  rw [Valid] at hvalid
  rw [withHabitat, if_pos hspider]
  simp only [hvalid]

end Primary

end SpiderDiagrams
