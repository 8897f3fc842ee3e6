import SpiderDiagrams.Primary

namespace SpiderDiagrams

theorem orElse_eq_none_iff {α : Type} {a b : Option α} :
    (a <|> b) = none ↔ a = none ∧ b = none := by
  cases a <;> simp

theorem map_eq_ok {α β ε : Type} {f : α → β} {x : Except ε α} {b : β} (h : x.map f = .ok b) :
    ∃ a, x = .ok a ∧ f a = b := by
  cases x with
  | error => cases h
  | ok a => exact ⟨a, rfl, Except.ok.inj h⟩

theorem mapError_eq_ok {α ε ε' : Type} {f : ε → ε'} {x : Except ε α} {y : α}
    (h : x.mapError f = .ok y) : x = .ok y := by
  cases x with
  | error => cases h
  | ok y => cases h; rfl

theorem firstRepeated_go_eq_none_iff {α : Type} [DecidableEq α] {seen l : List α} :
    firstRepeated.go seen l = none ↔ l.Nodup ∧ ∀ a ∈ l, a ∉ seen := by
  induction l generalizing seen with
  | nil => simp [firstRepeated.go]
  | cons a l ih =>
      rw [firstRepeated.go]
      by_cases ha : a ∈ seen
      · simp [ha]
      · rw [if_neg ha, ih, List.nodup_cons]
        constructor
        · rintro ⟨hl, hs⟩
          refine ⟨⟨fun hal => hs a hal List.mem_cons_self, hl⟩, ?_⟩
          intro b hb
          rcases List.mem_cons.1 hb with rfl | hb
          · exact ha
          · exact fun hbs => hs b hb (List.mem_cons_of_mem _ hbs)
        · rintro ⟨⟨hal, hl⟩, hs⟩
          refine ⟨hl, ?_⟩
          intro b hb hbs
          rcases List.mem_cons.1 hbs with rfl | hbs
          · exact hal hb
          · exact hs b (List.mem_cons_of_mem _ hb) hbs

theorem firstRepeated_eq_none_iff {α : Type} [DecidableEq α] {l : List α} :
    firstRepeated l = none ↔ l.Nodup := by
  rw [firstRepeated, firstRepeated_go_eq_none_iff]
  simp

namespace Primary

variable {p : Primary}

theorem valid_iff :
    p.Valid ↔ (∀ s ∈ p.spiders, p.spiderFault? s = none) ∧ p.contourFault? = none := by
  rw [Valid, fault?, orElse_eq_none_iff, List.findSome?_eq_none_iff]
  rfl

theorem nameFault?_eq_none_iff {s : String} : nameFault? s = none ↔ IsName s := by
  rw [nameFault?]
  split <;> simp_all

theorem Valid.isName_spider (h : p.Valid) {s : String} (hs : s ∈ p.spiders) : IsName s := by
  have hf := (valid_iff.1 h).1 s hs
  rw [spiderFault?, orElse_eq_none_iff] at hf
  exact nameFault?_eq_none_iff.1 hf.1

theorem Valid.isName_contour (h : p.Valid) {z : Zone} (hz : z ∈ p.zones) {c : String}
    (hc : c ∈ z.inside ∨ c ∈ z.outside) : IsName c := by
  have hf := (valid_iff.1 h).2
  rw [contourFault?, orElse_eq_none_iff, List.findSome?_eq_none_iff] at hf
  apply nameFault?_eq_none_iff.1
  apply hf.1
  have hm : c ∈ p.contours := by
    rw [contours, SortedSet.mem_ofList, List.mem_flatMap]
    exact ⟨z, hz, List.mem_append.2 hc⟩
  exact hm

theorem isTrivial_iff : p.isTrivial = true ↔ p.spiders = ∅ ∧ p.shaded = ∅ := by
  rw [isTrivial, Bool.and_eq_true, SortedSet.isEmpty_iff, SortedSet.isEmpty_iff]

theorem mem_zones {z : Zone} : z ∈ p.zones ↔ (∃ e ∈ p.habitats.entries, z ∈ e.2) ∨ z ∈ p.shaded := by
  rw [zones, List.mem_append, List.mem_flatMap]
  apply or_congr_left
  constructor
  · rintro ⟨r, hr, hz⟩
    obtain ⟨e, he, rfl⟩ := List.mem_map.1 hr
    exact ⟨e, he, hz⟩
  · rintro ⟨e, he, hz⟩
    exact ⟨e.2, List.mem_map_of_mem he, hz⟩

theorem mem_zones_of_habitat {s : String} {r : Region} (h : (s, r) ∈ p.habitats.entries) {z : Zone}
    (hz : z ∈ r) : z ∈ p.zones :=
  mem_zones.2 (.inl ⟨(s, r), h, hz⟩)

theorem mem_zones_of_shaded {z : Zone} (hz : z ∈ p.shaded) : z ∈ p.zones := mem_zones.2 (.inr hz)

theorem ofParts_parts (h : p.Valid) :
    ofParts p.spiders.toList (p.habitats.entries.map fun e => (e.1, e.2.toList)) p.shaded.toList =
      .ok p := by
  have hmap : (p.habitats.entries.map fun e => (e.1, e.2.toList)).map
      (fun e => (e.1, SortedSet.ofList e.2)) = p.habitats.entries := by
    have he : ∀ e ∈ p.habitats.entries, (e.1, SortedSet.ofList e.2.toList) = id e :=
      fun e _ => congrArg (Prod.mk e.1) (SortedSet.ofList_toList e.2)
    rw [List.map_map]
    exact (List.map_congr_left he).trans (List.map_id _)
  have hkeys : (p.habitats.entries.map fun e => (e.1, e.2.toList)).map (·.1) = p.spiders.toList := by
    rw [List.map_map]
    rfl
  obtain ⟨hs, hc⟩ := valid_iff.1 h
  have h₁ : firstRepeated p.spiders.toList = none := firstRepeated_eq_none_iff.2 p.spiders.nodup
  have h₂ : p.spiders.toList.findSome? p.spiderFault? = none := List.findSome?_eq_none_iff.2 hs
  have h₃ : p.spiders.toList.find? (· ∉ p.spiders) = none := by
    rw [List.find?_eq_none]
    intro s hm
    have hs : s ∈ p.spiders := hm
    simp [hs]
  rw [ofParts]
  simp only [hmap, hkeys, SortedMap.ofList_entries, SortedSet.ofList_toList, h₁, h₂, h₃, hc]
  rfl

theorem valid_of_ofParts {spiders : List String} {habitats : List (String × List Zone)}
    {shaded : List Zone} (h : ofParts spiders habitats shaded = .ok p) : p.Valid := by
  rw [ofParts] at h
  split at h
  next => cases h
  next hf =>
    cases h
    rw [orElse_eq_none_iff, orElse_eq_none_iff, orElse_eq_none_iff, Option.map_eq_none_iff,
      Option.map_eq_none_iff, List.findSome?_eq_none_iff, List.find?_eq_none] at hf
    obtain ⟨_, hspiders, hnamed, hcontours⟩ := hf
    refine valid_iff.2 ⟨?_, hcontours⟩
    intro s hs
    apply hspiders s
    have hn : s ∈ SortedSet.ofList spiders := by
      have := hnamed s hs
      simpa using this
    exact hn

theorem of_withHabitat {q : Primary} {s : String} {r : Region} (h : p.withHabitat s r = .ok q) :
    s ∈ p.spiders ∧ q = { p with habitats := p.habitats.insert s r } := by
  rw [withHabitat] at h
  split at h
  next hs =>
    dsimp only at h
    split at h
    next => cases h
    next => cases h; exact ⟨hs, rfl⟩
  next => cases h

theorem mem_spiders_insert {s : String} (hs : s ∈ p.spiders) (r : Region) (j : String) :
    j ∈ ({ p with habitats := p.habitats.insert s r } : Primary).spiders ↔ j ∈ p.spiders := by
  refine (SortedMap.mem_keys_insert p.habitats s j r).trans ⟨?_, Or.inr⟩
  rintro (rfl | hj)
  · exact hs
  · exact hj

theorem habitat?_insert (p : Primary) (s : String) (r : Region) (j : String) :
    ({ p with habitats := p.habitats.insert s r } : Primary).habitat? j =
      if j = s then some r else p.habitat? j :=
  SortedMap.get?_insert p.habitats s j r

end Primary

end SpiderDiagrams
