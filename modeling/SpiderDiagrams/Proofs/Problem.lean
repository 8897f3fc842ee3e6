import Mathlib.Data.List.Forall2
import SpiderDiagrams.Problem
import SpiderDiagrams.Proofs.Diagram.Acceptance
import SpiderDiagrams.Proofs.Json.Extent

namespace SpiderDiagrams

theorem mapError_eq_ok_iff {α ε ε' : Type} {f : ε → ε'} {x : Except ε α} {a : α} :
    x.mapError f = .ok a ↔ x = .ok a :=
  ⟨mapError_eq_ok, fun h => h ▸ rfl⟩

theorem cons_eq_ok_iff {β ε : Type} {x : Except ε β} {xs : Except ε (List β)} {l : List β} :
    (do let b ← x; return b :: (← xs)) = .ok l ↔ ∃ b bs, x = .ok b ∧ xs = .ok bs ∧ l = b :: bs := by
  constructor
  · intro h
    obtain ⟨b, hb, h⟩ := bind_eq_ok h
    obtain ⟨bs, hbs, h⟩ := bind_eq_ok h
    exact ⟨b, bs, hb, hbs, (Except.ok.inj h).symm⟩
  · rintro ⟨b, bs, rfl, rfl, rfl⟩
    rfl

theorem exists_forall₂_iff {α β : Type} {R : α → β → Prop} {l : List α} :
    (∃ m, List.Forall₂ R l m) ↔ ∀ a ∈ l, ∃ b, R a b := by
  induction l with
  | nil => exact iff_of_true ⟨[], .nil⟩ (List.forall_mem_nil _)
  | cons a l ih =>
      simp only [List.forall₂_cons_left_iff, List.forall_mem_cons, ← ih]
      constructor
      · rintro ⟨_, b, m, hb, hm, rfl⟩
        exact ⟨⟨b, hb⟩, m, hm⟩
      · rintro ⟨⟨b, hb⟩, m, hm⟩
        exact ⟨_, b, m, hb, hm, rfl⟩

theorem exists_mem_of_forall₂ {α β : Type} {R : α → β → Prop} {l : List α} {m : List β} {b : β}
    (h : List.Forall₂ R l m) (hb : b ∈ m) : ∃ a ∈ l, R a b := by
  induction h with
  | nil => cases hb
  | @cons a c l m hac _ ih =>
      rcases List.mem_cons.1 hb with rfl | hb
      · exact ⟨a, List.mem_cons_self, hac⟩
      · obtain ⟨a', ha, hr⟩ := ih hb
        exact ⟨a', List.mem_cons_of_mem _ ha, hr⟩

namespace Decoder

variable {σ : Type} {fields : List (Field σ)} {I : σ → Prop} {n : Nat} {draft s : σ} {j : Json}

def Keeps (fields : List (Field σ)) (n : Nat) (I : σ → Prop) : Prop :=
  ∀ f ∈ fields, ∀ draft j draft', j.extent ≤ n → I draft → f.set draft j = .ok draft' → I draft'

theorem Keeps.setMembers (hk : Keeps fields n I) {ms : List (Json × Json)} {seen seen' : List String}
    (hms : Json.extentOfMembers ms ≤ n) (hd : I draft)
    (h : setMembers fields seen draft ms = .ok (seen', s)) : I s := by
  induction ms generalizing seen draft with
  | nil => cases h; exact hd
  | cons m ms ih =>
      obtain ⟨k, v⟩ := m
      rw [Json.extentOfMembers, Json.extentOfMember] at hms
      obtain ⟨name, _, h⟩ := bind_eq_ok h
      split at h
      next f hf =>
        split at h
        next => cases h
        next =>
          obtain ⟨draft', hset, h⟩ := bind_eq_ok h
          have hd' := hk f (List.mem_of_find?_eq_some hf) draft v draft' (by omega) hd hset
          exact ih (by omega) hd' h
      next =>
        obtain ⟨_, _, h⟩ := bind_eq_ok h
        exact ih (by omega) hd h

theorem Keeps.setItems (hk : Keeps fields n I) {expected : String} {js : List Json} {i : Nat}
    (hjs : Json.extentOfItems js ≤ n) (hd : I draft)
    (h : setItems expected i fields draft js = .ok s) : I s := by
  induction fields generalizing i draft js with
  | nil =>
      obtain ⟨_, _, h⟩ := bind_eq_ok h
      cases h
      exact hd
  | cons f fields ih =>
      have htail : Keeps fields n I := fun g hg => hk g (List.mem_cons_of_mem _ hg)
      cases js with
      | nil =>
          rw [Decoder.setItems] at h
          split at h
          next => exact ih htail hjs hd h
          next => cases h
      | cons j js =>
          rw [Json.extentOfItems] at hjs
          obtain ⟨draft', hset, h⟩ := bind_eq_ok h
          have hd' := hk f List.mem_cons_self draft j draft' (by omega) hd hset
          exact ih htail (by omega) hd' h

theorem Keeps.record (hk : Keeps fields n I) {what : String} (hj : j.extent ≤ n) (hd : I draft)
    (h : record what fields draft j = .ok s) : I s := by
  unfold Decoder.record at h
  split at h
  next ms =>
    rw [Json.extent] at hj
    obtain ⟨⟨seen, draft'⟩, hm, h⟩ := bind_eq_ok h
    dsimp only at h
    split at h
    next => cases h
    next =>
      cases h
      exact hk.setMembers hj hd hm
  next js =>
    rw [Json.extent] at hj
    exact hk.setItems hj hd h
  next => cases h

theorem eq_string_of_string {t : String} (h : string j = .ok t) : j = .string t := by
  unfold Decoder.string at h
  split at h
  next => cases h; rfl
  next => cases h

theorem length_of_items {js : List Json} {l : List String} (h : items string js = .ok l) :
    l.length ≤ Json.extentOfItems js ∧ ∀ t ∈ l, t.length ≤ Json.extentOfItems js := by
  induction js generalizing l with
  | nil => cases h; exact ⟨Nat.le_refl 0, fun t ht => by cases ht⟩
  | cons j js ih =>
      obtain ⟨t, ht, h⟩ := bind_eq_ok h
      obtain ⟨ts, hts, h⟩ := bind_eq_ok h
      cases h
      obtain ⟨hlen, hall⟩ := ih hts
      rw [eq_string_of_string ht, Json.extentOfItems, Json.extent]
      refine ⟨by rw [List.length_cons]; omega, List.forall_mem_cons.2 ⟨by omega, ?_⟩⟩
      intro u hu
      have := hall u hu
      omega

theorem length_of_list {l : List String} (h : list string j = .ok l) :
    l.length ≤ j.extent ∧ ∀ t ∈ l, t.length ≤ j.extent := by
  unfold Decoder.list at h
  split at h
  next js =>
    rw [Json.extent]
    exact length_of_items h
  next => cases h

end Decoder

namespace Problem

def Within (n : Nat) (p : Problem) : Prop := p.goals.length ≤ n ∧ ∀ t ∈ p.goals, t.length ≤ n

theorem within_of_load {text : String} {p : Problem} (h : load text = .ok p) :
    p.Within text.length := by
  obtain ⟨q, hq, h⟩ := bind_eq_ok (mapError_eq_ok h)
  split at h
  next => cases h
  next =>
    cases h
    refine Decoder.Keeps.record (I := Within text.length) ?_ (Json.extent_read_le text)
      ⟨Nat.zero_le _, fun t ht => by cases ht⟩ hq
    intro f hf draft j draft' hj hd hset
    simp only [List.mem_cons, List.not_mem_nil, or_false] at hf
    rcases hf with rfl | rfl | rfl | rfl | rfl | rfl | rfl | rfl <;>
      obtain ⟨a, ha, rfl⟩ := map_eq_ok hset
    case inr.inr.inl =>
      obtain ⟨hlen, hall⟩ := Decoder.length_of_list ha
      exact ⟨Nat.le_trans hlen hj, fun t ht => Nat.le_trans (hall t ht) hj⟩
    -- the other fields leave the goals as they are
    all_goals exact hd

theorem readGoals_eq_ok_iff {texts : List String} {i : Nat} {g : Goals} :
    readGoals i texts = .ok g ↔ List.Forall₂ (fun t d => Diagram.read t = .ok d) texts g := by
  induction texts generalizing i g with
  | nil => rw [readGoals, List.forall₂_nil_left_iff, Except.ok.injEq, eq_comm]
  | cons t texts ih =>
      rw [readGoals, cons_eq_ok_iff, List.forall₂_cons_left_iff]
      simp only [ih, mapError_eq_ok_iff]

end Problem

namespace Rule

theorem named_eq_ok_iff {name : String} {rule : Rule} :
    named name = .ok rule ↔ name = rule.name := by
  rw [named]
  constructor
  · intro h
    split at h
    next r hr =>
      cases h
      have hp := List.find?_some hr
      exact (of_decide_eq_true hp).symm
    next => cases h
  · rintro rfl
    rw [ofName?_name]

theorem eq_map_name_iff {names : List String} {rules : List Rule} :
    names = rules.map name ↔ List.Forall₂ (fun n (rule : Rule) => n = rule.name) names rules := by
  rw [← List.forall₂_map_right_iff, List.forall₂_eq_eq_eq]

theorem listNamed_eq_ok_iff {names : List String} {rules : List Rule} :
    listNamed names = .ok rules ↔ names = rules.map name := by
  rw [eq_map_name_iff]
  induction names generalizing rules with
  | nil => rw [listNamed, List.forall₂_nil_left_iff, Except.ok.injEq, eq_comm]
  | cons name names ih =>
      rw [listNamed, cons_eq_ok_iff, List.forall₂_cons_left_iff]
      simp only [ih, named_eq_ok_iff]

end Rule

theorem Problem.toRules_eq_ok_iff {p : Problem} {rules : List Rule} :
    p.toRules = .ok rules ↔
      p.rules = some (rules.map Rule.name) ∨ p.rules = none ∧ rules = Rule.all := by
  rw [toRules]
  cases p.rules with
  | none => simp [eq_comm]
  | some names => simp [mapError_eq_ok_iff, Rule.listNamed_eq_ok_iff]

theorem Problem.exists_toRules {p : Problem}
    (h : ∀ names, p.rules = some names → ∀ name ∈ names, ∃ rule : Rule, rule.name = name) :
    ∃ rules, p.toRules = .ok rules := by
  simp only [toRules_eq_ok_iff]
  cases hp : p.rules with
  | none => exact ⟨Rule.all, .inr ⟨rfl, rfl⟩⟩
  | some names =>
      obtain ⟨rules, hr⟩ := exists_forall₂_iff.2 (h names hp)
      exact ⟨rules, .inl (congrArg some (Rule.eq_map_name_iff.2 (hr.imp fun _ _ => Eq.symm)))⟩

end SpiderDiagrams
