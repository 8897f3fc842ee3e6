import SpiderDiagrams.Proofs.Moves
import SpiderDiagrams.Proofs.Weight

/-!
Splitting habitats until nothing is left to split. Whatever is split, where and in which order, the
ways to choose a zone for each spider are shared out between the cases: each choice belongs to one
of them, and their numbers add up. Every split makes one more case, so a run ends, and it ends where
each case has one choice left.
-/

namespace SpiderDiagrams

namespace Primary

variable {p q inside outside : Primary} {s : String} {habitat region : Region} {f : String → Zone}

/-- The zone chosen for each spider is in its habitat. -/
def Allows (p : Primary) (f : String → Zone) : Prop := ∀ e ∈ p.habitats.entries, f e.1 ∈ e.2

instance (p : Primary) (f : String → Zone) : Decidable (p.Allows f) :=
  inferInstanceAs (Decidable (∀ e ∈ p.habitats.entries, f e.1 ∈ e.2))

def placed (p : Primary) (f : String → Zone) : Primary :=
  { p with habitats := ⟨p.habitats.entries.map fun e => (e.1, .ofList [f e.1]),
      List.pairwise_map.2 p.habitats.sorted⟩ }

/-- Each spider has one zone left. -/
def Settled (p : Primary) : Prop := ∀ e ∈ p.habitats.entries, e.2.size = 1

instance (p : Primary) : Decidable p.Settled :=
  inferInstanceAs (Decidable (∀ e ∈ p.habitats.entries, e.2.size = 1))

theorem allows_placed (p : Primary) (f : String → Zone) : (p.placed f).Allows f := by
  refine List.forall_mem_map.2 fun e _ => ?_
  exact SortedSet.mem_ofList.2 List.mem_cons_self

theorem choices_eq_one {l : List (String × Region)} (h : ∀ e ∈ l, e.2.size = 1) :
    choices l = 1 := by
  induction l with
  | nil => rfl
  | cons e l ih =>
      obtain ⟨he, hl⟩ := List.forall_mem_cons.1 h
      rw [choices_cons, he, ih hl]

theorem Settled.placements_eq (h : p.Settled) : p.placements = 1 := choices_eq_one h

theorem Settled.eq_placed (h : q.Settled) (hspiders : q.spiders = p.spiders)
    (hshaded : q.shaded = p.shaded) (hf : q.Allows f) : q = p.placed f := by
  have hkeys : q.habitats.entries.map (·.1) = p.habitats.entries.map (·.1) :=
    congrArg SortedSet.toList hspiders
  have hzone : ∀ e ∈ q.habitats.entries, e = (e.1, SortedSet.ofList [f e.1]) := by
    intro e he
    obtain ⟨z, hz⟩ := List.length_eq_one_iff.1 (h e he)
    have hmem : f e.1 ∈ e.2.toList := hf e he
    rw [hz, List.mem_singleton] at hmem
    rw [hmem]
    exact congrArg (Prod.mk e.1) (SortedSet.eq_of_toList hz)
  have hentries : q.habitats.entries =
      p.habitats.entries.map fun e => (e.1, SortedSet.ofList [f e.1]) :=
    calc q.habitats.entries
        = q.habitats.entries.map fun e => (e.1, SortedSet.ofList [f e.1]) := by
          conv_lhs => rw [← List.map_id q.habitats.entries]
          exact List.map_congr_left hzone
      _ = (q.habitats.entries.map (·.1)).map fun s => (s, SortedSet.ofList [f s]) := by
          rw [List.map_map]
          rfl
      _ = p.habitats.entries.map fun e => (e.1, SortedSet.ofList [f e.1]) := by
          rw [hkeys, List.map_map]
          rfl
  have hhabitats : q.habitats = (p.placed f).habitats := SortedMap.eq_of_entries hentries
  cases q
  cases hhabitats
  cases hshaded
  rfl

theorem Valid.exists_allows (h : p.Valid) : ∃ f, p.Allows f := by
  have hzone : ∀ s, ∃ z : Zone, ∀ r, (s, r) ∈ p.habitats.entries → z ∈ r := by
    intro s
    cases hs : p.habitat? s with
    | none =>
        refine ⟨default, ?_⟩
        intro r hr
        cases hs.symm.trans (SortedMap.lookup_of_mem p.habitats.sorted hr)
    | some habitat =>
        obtain ⟨z, hz⟩ := List.exists_mem_of_length_pos
          (h.habitat_size_pos (SortedMap.mem_of_lookup hs))
        refine ⟨z, ?_⟩
        intro r hr
        obtain rfl := Option.some.inj
          (hs.symm.trans (SortedMap.lookup_of_mem p.habitats.sorted hr))
        exact hz
  obtain ⟨f, hf⟩ := Classical.axiomOfChoice hzone
  exact ⟨f, fun e he => hf e.1 e.2 he⟩

theorem exists_allows_iff (hp : p.habitat? s = some habitat) (f : String → Zone) :
    ∃ others : Prop, (p.Allows f ↔ f s ∈ habitat ∧ others) ∧
      ∀ q region, p.withHabitat s region = .ok q → (q.Allows f ↔ f s ∈ region ∧ others) := by
  obtain ⟨l₁, l₂, hl, hplace⟩ := SortedMap.exists_place_eq p.habitats.sorted hp
  have hsplit (r : Region) : (∀ e ∈ l₁ ++ (s, r) :: l₂, f e.1 ∈ e.2) ↔
      f s ∈ r ∧ (∀ e ∈ l₁, f e.1 ∈ e.2) ∧ ∀ e ∈ l₂, f e.1 ∈ e.2 := by
    rw [List.forall_mem_append, List.forall_mem_cons]
    exact and_left_comm
  refine ⟨(∀ e ∈ l₁, f e.1 ∈ e.2) ∧ ∀ e ∈ l₂, f e.1 ∈ e.2, ?_, ?_⟩
  · rw [Allows, hl, hsplit]
  · intro q region hq
    obtain ⟨_, rfl⟩ := of_withHabitat hq
    show (∀ e ∈ SortedMap.place s region p.habitats.entries, f e.1 ∈ e.2) ↔ _
    rw [hplace, hsplit]

/-- A choice for a diagram is one for exactly one of the cases into which it is split. -/
theorem countP_allows_split (hp : p.habitat? s = some habitat) (hr : ∀ z ∈ region, z ∈ habitat)
    (hi : p.withHabitat s region = .ok inside)
    (ho : p.withHabitat s (habitat.diff region) = .ok outside) (f : String → Zone) :
    [inside, outside].countP (·.Allows f) = [p].countP (·.Allows f) := by
  obtain ⟨others, hf, hq⟩ := exists_allows_iff hp f
  have hfi := hq inside region hi
  have hfo := hq outside _ ho
  rw [SortedSet.mem_diff] at hfo
  simp only [List.countP_cons, List.countP_nil, decide_eq_true_eq]
  by_cases hothers : others
  · by_cases hs : f s ∈ region
    · have hs' := hr _ hs
      simp [hf, hfi, hfo, hothers, hs, hs']
    · simp [hf, hfi, hfo, hothers, hs]
  · simp [hf, hfi, hfo, hothers]

theorem spiders_of_withHabitat (hq : p.withHabitat s region = .ok q) : q.spiders = p.spiders := by
  obtain ⟨hs, rfl⟩ := of_withHabitat hq
  exact SortedSet.eq_of_mem_iff (mem_spiders_insert hs region)

/-- A valid diagram with the spiders and the shading of another. -/
structure Variant (p q : Primary) : Prop where
  valid : q.Valid
  spiders : q.spiders = p.spiders
  shaded : q.shaded = p.shaded

theorem inherited_variant (p : Primary) : Inherited p.Variant := by
  intro q q' s habitat region hq hs hr hq'
  refine ⟨inherited_valid q q' s habitat region hq.valid hs hr hq',
    (spiders_of_withHabitat hq').trans hq.spiders, ?_⟩
  obtain ⟨_, rfl⟩ := of_withHabitat hq'
  exact hq.shaded

end Primary

namespace Diagram

variable {d e : Diagram} {p : Primary} {ps : List Primary}

/-- A tree of disjunctions, with the primary diagrams at its leaves from left to right. -/
inductive Cases : Diagram → List Primary → Prop
  | leaf (p : Primary) : Cases (.primary p) [p]
  | either {l r : Diagram} {ps qs : List Primary} (hl : Cases l ps) (hr : Cases r qs) :
      Cases (.binary .disjunction l r) (ps ++ qs)

theorem Cases.of_fill {K : Context} (h : Cases (K.fill (.primary p)) ps) :
    ∃ qs rs, ps = qs ++ p :: rs ∧ ∀ d ds, Cases d ds → Cases (K.fill d) (qs ++ ds ++ rs) := by
  induction K generalizing ps with
  | hole =>
      cases h
      refine ⟨[], [], rfl, ?_⟩
      intro d ds hd
      rw [List.nil_append, List.append_nil]
      exact hd
  | negation => cases h
  | left c K r ih =>
      cases h with
      | either hl hr =>
          obtain ⟨qs, rs, rfl, hfill⟩ := ih hl
          refine ⟨qs, rs ++ _, List.append_assoc .., ?_⟩
          intro d ds hd
          rw [← List.append_assoc]
          exact .either (hfill d ds hd) hr
  | right c l K ih =>
      cases h with
      | @either _ _ ls _ hl hr =>
          obtain ⟨qs, rs, rfl, hfill⟩ := ih hr
          refine ⟨ls ++ qs, rs, (List.append_assoc ..).symm, ?_⟩
          intro d ds hd
          rw [List.append_assoc, List.append_assoc, ← List.append_assoc qs]
          exact .either hl (hfill d ds hd)

theorem Cases.exists_fill (h : Cases d ps) (hp : p ∈ ps) :
    ∃ K : Context, K.fill (.primary p) = d := by
  induction h with
  | leaf q =>
      obtain rfl := List.mem_singleton.1 hp
      exact ⟨.hole, rfl⟩
  | @either l r _ _ hl hr ihl ihr =>
      rcases List.mem_append.1 hp with hp | hp
      · obtain ⟨K, rfl⟩ := ihl hp
        exact ⟨.left .disjunction K r, rfl⟩
      · obtain ⟨K, rfl⟩ := ihr hp
        exact ⟨.right .disjunction l K, rfl⟩

theorem Cases.forall_of_all {P : Primary → Prop} (h : Cases d ps) (hd : d.All P) :
    ∀ q ∈ ps, P q := by
  induction h with
  | leaf q => exact List.forall_mem_singleton.2 hd
  | either _ _ ihl ihr => exact List.forall_mem_append.2 ⟨ihl hd.1, ihr hd.2⟩

theorem Cases.length_le_weight (h : Cases d ps) (hps : ∀ q ∈ ps, q.Valid) :
    ps.length ≤ d.weight := by
  induction h with
  | leaf q => exact (hps q List.mem_cons_self).placements_pos
  | either _ _ ihl ihr =>
      obtain ⟨hl, hr⟩ := List.forall_mem_append.1 hps
      rw [List.length_append]
      exact Nat.add_le_add (ihl hl) (ihr hr)

theorem Cases.weight_eq_length (h : Cases d ps) (hps : ∀ q ∈ ps, q.Settled) :
    d.weight = ps.length := by
  induction h with
  | leaf q => exact (hps q List.mem_cons_self).placements_eq
  | either _ _ ihl ihr =>
      obtain ⟨hl, hr⟩ := List.forall_mem_append.1 hps
      rw [weight, ihl hl, ihr hr, List.length_append]

theorem weight_fill (K : Context) (h : d.weight = e.weight) :
    (K.fill d).weight = (K.fill e).weight := by
  induction K with
  | hole => exact h
  | negation K ih => exact congrArg (· + 1) ih
  | left c K r ih => exact congrArg (· + r.weight) ih
  | right c l K ih => exact congrArg (l.weight + ·) ih

end Diagram

namespace Rule

variable {g h : Goals} {a : Argument} {d : Diagram} {p : Primary} {ps : List Primary} {n : Nat}

theorem exists_fill_of_splitSpiders (ha : splitSpiders.apply a [d] = .ok g) :
    ∃ (K : Context) (spider : String) (region : Region) (e e' : Diagram),
      splitHabitat spider region e = .ok e' ∧ d = K.fill e ∧ g = [K.fill e'] := by
  cases applies_of_apply ha with
  | @splitSpiders t spider region e e' _ he hr =>
      obtain ⟨g₁, g₂, K, _, hd, rfl⟩ := Goals.rewritten_iff.1 hr
      obtain ⟨_, _, _, _, _, _, _, _, _, rfl⟩ := of_splitHabitat he
      obtain ⟨rfl, hd⟩ | ⟨_, hd⟩ := List.append_eq_singleton_iff.1 hd.symm
      · cases hd
        refine ⟨K, spider, region, e, _, he, rfl, ?_⟩
        rw [List.nil_append, List.append_nil]
        exact Goals.dischargeTrivial_singleton (K.isTrivial_fill rfl)
      · cases hd
  | replace hf => cases hf

/-- What a number of splits makes of a primary diagram. -/
structure SharedOut (p : Primary) (n : Nat) (d : Diagram) (ps : List Primary) : Prop where
  cases : d.Cases ps
  length : ps.length = n + 1
  weight : d.weight = p.placements
  all : d.All p.Variant
  /-- Each choice for the diagram is one for a single case, and no other is one for any. -/
  allows : ∀ f, ps.countP (·.Allows f) = [p].countP (·.Allows f)

theorem sharedOut_start (hp : p.Valid) : SharedOut p 0 (.primary p) [p] where
  cases := .leaf p
  length := rfl
  weight := rfl
  all := ⟨hp, rfl, rfl⟩
  allows _ := rfl

theorem SharedOut.variant (hs : SharedOut p n d ps) {q : Primary} (hq : q ∈ ps) : p.Variant q :=
  hs.cases.forall_of_all hs.all q hq

theorem SharedOut.step (hs : SharedOut p n d ps) (ha : splitSpiders.apply a [d] = .ok g) :
    ∃ d' ps', g = [d'] ∧ SharedOut p (n + 1) d' ps' := by
  have hall := all_of_apply p.inherited_variant ha (List.forall_mem_singleton.2 hs.all)
  obtain ⟨K, spider, region, e, e', he, rfl, rfl⟩ := exists_fill_of_splitSpiders ha
  have hweight := Diagram.weight_fill K (weight_eq_of_splitHabitat he)
  obtain ⟨q, habitat, inside, outside, rfl, hq, hr, hi, ho, rfl⟩ := of_splitHabitat he
  obtain ⟨qs, rs, rfl, hfill⟩ := hs.cases.of_fill
  refine ⟨_, _, rfl, hfill _ _ (.either (.leaf inside) (.leaf outside)), ?_,
    hweight.trans hs.weight, List.forall_mem_singleton.1 hall, ?_⟩
  · have hlength := hs.length
    simp only [List.length_append, List.length_cons, List.length_nil] at hlength ⊢
    omega
  -- the other cases allow what they allowed, and the two new ones together what theirs did
  · intro f
    rw [← hs.allows f]
    show (qs ++ [inside, outside] ++ rs).countP _ = (qs ++ ([q] ++ rs)).countP _
    rw [List.append_assoc, List.countP_append, List.countP_append,
      Primary.countP_allows_split hq hr hi ho f, ← List.countP_append, ← List.countP_append]

theorem SharedOut.lt_placements (hs : SharedOut p n d ps) : n < p.placements := by
  have hle := hs.cases.length_le_weight fun q hq => (hs.variant hq).valid
  rw [hs.length, hs.weight] at hle
  exact hle

/-- Where nothing can be split, each spider of each case has one zone left: of a larger habitat one
zone could be taken. -/
theorem SharedOut.settled (hs : SharedOut p n d ps) (hend : ∀ a h, splitSpiders.apply a [d] ≠ .ok h)
    {q : Primary} (hq : q ∈ ps) : q.Settled := by
  intro e he
  by_contra hsize
  have hvalid := (hs.variant hq).valid
  have hpos := hvalid.habitat_size_pos he
  obtain ⟨z, hz⟩ := List.exists_mem_of_length_pos hpos
  have hpart := (properPart_of_one_zone.2 ⟨by omega, z, hz, rfl⟩).1
  have hhabitat : q.habitat? e.1 = some e.2 := SortedMap.lookup_of_mem q.habitats.sorted he
  have hsplit := splitHabitat_of_properPart hvalid hhabitat hpart
  obtain ⟨K, rfl⟩ := hs.cases.exists_fill hq
  exact hend _ _ (apply_of_applies
    (.splitSpiders hsplit (Goals.rewritten_singleton.2 ⟨K, rfl, rfl, rfl⟩)))

theorem apply_ne_ok_of_settled (hd : d.Cases ps) (hps : ∀ q ∈ ps, q.Settled) (a : Argument)
    (h : Goals) : splitSpiders.apply a [d] ≠ .ok h := by
  intro ha
  obtain ⟨K, spider, region, e, e', he, rfl, _⟩ := exists_fill_of_splitSpiders ha
  obtain ⟨q, habitat, rfl, hq, hempty, hr, hsize⟩ := properPart_of_splitHabitat he
  obtain ⟨qs, rs, rfl, _⟩ := hd.of_fill
  have hone : habitat.size = 1 :=
    hps q (List.mem_append_right _ List.mem_cons_self) _ (SortedMap.mem_of_lookup hq)
  have hadd := SortedSet.size_add_size_diff hr
  have hzero : region.size = 0 := by omega
  exact hempty (SortedSet.eq_of_toList (List.length_eq_zero_iff.1 hzero))

theorem SharedOut.allows_of_case (hs : SharedOut p n d ps) {q : Primary} (hq : q ∈ ps)
    {f : String → Zone} (hf : q.Allows f) : p.Allows f := by
  have hpos : 0 < [p].countP (·.Allows f) := by
    rw [← hs.allows f]
    exact List.countP_pos_iff.2 ⟨q, hq, decide_eq_true hf⟩
  obtain ⟨_, hmem, hallows⟩ := List.countP_pos_iff.1 hpos
  obtain rfl := List.mem_singleton.1 hmem
  exact of_decide_eq_true hallows

theorem SharedOut.eq_placed (hs : SharedOut p n d ps) {q : Primary} (hq : q ∈ ps)
    (hsettled : q.Settled) {f : String → Zone} (hf : q.Allows f) : q = p.placed f :=
  hsettled.eq_placed (hs.variant hq).spiders (hs.variant hq).shaded hf

theorem SharedOut.count_placed (hs : SharedOut p n d ps) (hsettled : ∀ q ∈ ps, q.Settled)
    {f : String → Zone} (hf : p.Allows f) : ps.count (p.placed f) = 1 := by
  have hcase : ∀ q ∈ ps, (q == p.placed f) = true ↔ decide (q.Allows f) = true := by
    intro q hq
    rw [beq_iff_eq, decide_eq_true_iff]
    constructor
    · rintro rfl
      exact p.allows_placed f
    · exact hs.eq_placed hq (hsettled q hq)
  calc ps.count (p.placed f)
      = ps.countP (·.Allows f) := List.countP_congr hcase
    _ = [p].countP (·.Allows f) := hs.allows f
    _ = 1 := List.countP_eq_length.2 (List.forall_mem_singleton.2 (decide_eq_true hf))

/-- The goals that a number of splits leads to. -/
inductive SplitsIn (g : Goals) : Nat → Goals → Prop
  | refl : SplitsIn g 0 g
  | tail {n : Nat} {h k : Goals} {a : Argument} (hs : SplitsIn g n h)
      (ha : splitSpiders.apply a h = .ok k) : SplitsIn g (n + 1) k

theorem splitsIn_of_forall {run : Nat → Goals}
    (hrun : ∀ n, ∃ a, splitSpiders.apply a (run n) = .ok (run (n + 1))) (n : Nat) :
    SplitsIn (run 0) n (run n) := by
  induction n with
  | zero => exact .refl
  | succ n ih =>
      obtain ⟨a, ha⟩ := hrun n
      exact .tail ih ha

theorem SplitsIn.exists_sharedOut (hp : p.Valid) (hr : SplitsIn [.primary p] n g) :
    ∃ d ps, g = [d] ∧ SharedOut p n d ps := by
  induction hr with
  | refl => exact ⟨_, _, rfl, sharedOut_start hp⟩
  | tail _ ha ih =>
      obtain ⟨d, ps, rfl, hs⟩ := ih
      exact hs.step ha

/-- Splitting a valid primary diagram ends, in whatever order and however large the parts are. It
ends after one step less than there are choices of a zone for each spider, with one case for each
choice. -/
theorem splits_end_in_choices (p : Primary) (hp : p.Valid) :
    (¬∃ run : Nat → Goals, run 0 = [.primary p] ∧
      ∀ n, ∃ a, splitSpiders.apply a (run n) = .ok (run (n + 1))) ∧
    ∀ n g, SplitsIn [.primary p] n g → n < p.placements ∧
      ((∀ a h, splitSpiders.apply a g ≠ .ok h) →
        n = p.placements - 1 ∧ ∃ d ps, g = [d] ∧ d.Cases ps ∧ ps.length = p.placements ∧
          (∀ q ∈ ps, q.spiders = p.spiders ∧ q.shaded = p.shaded ∧
            ∃ f, p.Allows f ∧ q = p.placed f) ∧
          ∀ f, p.Allows f → ps.count (p.placed f) = 1) := by
  refine ⟨?_, ?_⟩
  · rintro ⟨run, hstart, hrun⟩
    have hr := splitsIn_of_forall hrun p.placements
    rw [hstart] at hr
    obtain ⟨d, ps, _, hs⟩ := hr.exists_sharedOut hp
    exact Nat.lt_irrefl _ hs.lt_placements
  · intro n g hr
    obtain ⟨d, ps, rfl, hs⟩ := hr.exists_sharedOut hp
    refine ⟨hs.lt_placements, ?_⟩
    intro hend
    have hsettled : ∀ q ∈ ps, q.Settled := fun q hq => hs.settled hend hq
    have hlength : ps.length = p.placements :=
      (hs.cases.weight_eq_length hsettled).symm.trans hs.weight
    have hcount := hs.length
    refine ⟨by omega, d, ps, rfl, hs.cases, hlength, ?_, fun f hf => hs.count_placed hsettled hf⟩
    intro q hq
    obtain ⟨hvalid, hspiders, hshaded⟩ := hs.variant hq
    obtain ⟨f, hf⟩ := hvalid.exists_allows
    exact ⟨hspiders, hshaded, f, hs.allows_of_case hq hf, hs.eq_placed hq (hsettled q hq) hf⟩

theorem splits_end_in_choices_two_spiders :
    let a := Zone.ofLists ["A"] ["B"]
    let b := Zone.ofLists ["B"] ["A"]
    let o := Zone.ofLists [] ["A", "B"]
    let p (s t : List Zone) : Primary := ⟨.ofList [("s", .ofList s), ("t", .ofList t)], .ofList [o]⟩
    let both (s : Zone) : Diagram :=
      .binary .disjunction (.primary (p [s] [a])) (.primary (p [s] [b]))
    let d : Diagram := .binary .disjunction (.binary .disjunction (both a) (both o)) (both b)
    (p [a, b, o] [a, b]).Valid ∧ SplitsIn [.primary (p [a, b, o] [a, b])] 5 [d] ∧
      (∀ c h, splitSpiders.apply c [d] ≠ .ok h) ∧ 5 = (p [a, b, o] [a, b]).placements - 1 ∧
      ∃ d' ps, [d] = [d'] ∧ d'.Cases ps ∧
        ∀ f, (p [a, b, o] [a, b]).Allows f → ps.count ((p [a, b, o] [a, b]).placed f) = 1 := by
  intro a b o p both d
  have hvalid : (p [a, b, o] [a, b]).Valid := by decide +kernel
  let either (l r : Diagram) : Diagram := .binary .disjunction l r
  let still (s : List Zone) : Diagram := .primary (p s [a, b])
  have h₁ : SplitsIn [still [a, b, o]] 1 [either (still [a, o]) (still [b])] :=
    .tail (a := .spiderRegion ⟨0, 0⟩ "s" (.ofList [a, o])) .refl (by decide +kernel)
  have h₂ : SplitsIn [still [a, b, o]] 2 [either (still [a, o]) (both b)] :=
    .tail (a := .spiderRegion ⟨0, 2⟩ "t" (.ofList [a])) h₁ (by decide +kernel)
  have h₃ : SplitsIn [still [a, b, o]] 3 [either (either (still [a]) (still [o])) (both b)] :=
    .tail (a := .spiderRegion ⟨0, 1⟩ "s" (.ofList [a])) h₂ (by decide +kernel)
  have h₄ : SplitsIn [still [a, b, o]] 4 [either (either (both a) (still [o])) (both b)] :=
    .tail (a := .spiderRegion ⟨0, 2⟩ "t" (.ofList [a])) h₃ (by decide +kernel)
  have hrun : SplitsIn [still [a, b, o]] 5 [d] :=
    .tail (a := .spiderRegion ⟨0, 5⟩ "t" (.ofList [a])) h₄ (by decide +kernel)
  have hend : ∀ c h, splitSpiders.apply c [d] ≠ .ok h :=
    apply_ne_ok_of_settled
      (.either (.either (.either (.leaf _) (.leaf _)) (.either (.leaf _) (.leaf _)))
        (.either (.leaf _) (.leaf _))) (by decide +kernel)
  obtain ⟨_, h⟩ := (splits_end_in_choices _ hvalid).2 5 [d] hrun
  obtain ⟨hn, d', ps, hd, hcases, _, _, hcount⟩ := h hend
  exact ⟨hvalid, hrun, hend, hn, d', ps, hd, hcases, hcount⟩

end Rule

end SpiderDiagrams
