import SpiderDiagrams.Proofs.Application
import SpiderDiagrams.Proofs.Diagram.Occurrence

namespace SpiderDiagrams

variable {g h : Goals} {t : Target} {e e' : Diagram} {P : Primary → Prop} {rule : Rule}
  {a : Argument}

namespace Goals

def All (P : Primary → Prop) (g : Goals) : Prop := ∀ d ∈ g, d.All P

theorem All.of_dischargeTrivial (hg : g.All P) : g.dischargeTrivial.All P :=
  fun d hd => hg d (List.mem_filter.1 hd).1

theorem All.of_replaceSubgoal? {i : Nat} {ds : List Diagram} (hg : g.All P) (hds : Goals.All P ds)
    (hr : g.replaceSubgoal? i ds = some h) : h.All P := by
  intro d hd
  rw [eq_of_replaceSubgoal? hr, List.mem_append, List.mem_append] at hd
  rcases hd with (hd | hd) | hd
  · exact hg d (List.mem_of_mem_take hd)
  · exact hds.of_dischargeTrivial d hd
  · exact hg d (List.mem_of_mem_drop hd)

theorem All.of_target (hg : g.All P) (hr : g.Rewritten h t e e') : e.All P := by
  obtain ⟨d, d', hd, hs, _, _⟩ := hr
  exact (hg d (List.mem_of_getElem? hd)).of_sub? hs

theorem All.of_rewritten (hg : g.All P) (he : e'.All P) (hr : g.Rewritten h t e e') : h.All P := by
  obtain ⟨d, d', hd, hs, hd', hh⟩ := hr
  have hall := (hg d (List.mem_of_getElem? hd)).of_replaceAt? he hs hd'
  exact hg.of_replaceSubgoal? (List.forall_mem_singleton.2 hall) hh

end Goals

/-- The property passes on where a spider is given a part of its habitat. -/
def Primary.Inherited (P : Primary → Prop) : Prop :=
  ∀ p q s habitat region, P p → p.habitat? s = some habitat → (∀ z ∈ region, z ∈ habitat) →
    p.withHabitat s region = .ok q → P q

namespace Rule

theorem all_of_replaces (hr : Replaces rule e e') (he : e.All P) : e'.All P := by
  cases hr with
  | drop | wrap => exact he
  | swap => exact he.symm
  | collapse => exact he.1
  | close => exact trivial

theorem all_of_splitHabitat (hP : Primary.Inherited P) {spider : String} {region : Region}
    (hs : splitHabitat spider region e = .ok e') (he : e.All P) : e'.All P := by
  obtain ⟨p, habitat, inside, outside, rfl, hp, hr, hi, ho, rfl⟩ := of_splitHabitat hs
  have hdiff : ∀ z ∈ habitat.diff region, z ∈ habitat := fun z hz => (SortedSet.mem_diff.1 hz).1
  exact ⟨hP p inside spider habitat region he hp hr hi,
    hP p outside spider habitat _ he hp hdiff ho⟩

theorem all_of_apply (hP : Primary.Inherited P) (ha : rule.apply a g = .ok h) (hg : g.All P) :
    h.All P := by
  cases applies_of_apply ha with
  | @split t l r _ _ hd hr =>
      have hlr := hg _ (List.mem_of_getElem? hd)
      exact hg.of_replaceSubgoal? (List.forall_mem_cons.2 ⟨hlr.1, List.forall_mem_singleton.2 hlr.2⟩) hr
  | eliminate _ he hr =>
      have hall := hg.of_target hr
      obtain ⟨l, r, rfl, rfl | rfl⟩ := of_keepOperand he
      · exact hg.of_rewritten hall.1 hr
      · exact hg.of_rewritten hall.2 hr
  | splitSpiders he hr =>
      exact hg.of_rewritten (all_of_splitHabitat hP he (hg.of_target hr)) hr
  | replace hf he hr =>
      exact hg.of_rewritten (all_of_replaces (replaces_of_replacement? hf he) (hg.of_target hr)) hr

end Rule

theorem Primary.inherited_valid : Inherited Valid := by
  intro p q s habitat region _ _ _ hq
  rw [withHabitat] at hq
  split at hq
  next =>
    dsimp only at hq
    split at hq
    next => cases hq
    next hf => cases hq; exact hf
  next => cases hq

end SpiderDiagrams
