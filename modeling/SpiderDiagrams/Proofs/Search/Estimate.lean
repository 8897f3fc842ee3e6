import SpiderDiagrams.Proofs.Moves
import SpiderDiagrams.Search.Strategy

namespace SpiderDiagrams

variable {g h : Goals} {d : Diagram} {n : Nat}

inductive Diagram.Tautologous : Diagram → Prop
  | implication {l r : Diagram} (h : l.Equivalent r) : Tautologous (.binary .implication l r)

theorem Diagram.tautologous_iff :
    d.Tautologous ↔ ∃ l r, d = .binary .implication l r ∧ l.Equivalent r := by
  constructor
  · rintro ⟨h⟩
    exact ⟨_, _, rfl, h⟩
  · rintro ⟨l, r, rfl, h⟩
    exact .implication h

namespace Strategy

theorem isOk_closeImplication_iff : (Rule.closeImplication d).isOk = true ↔ d.Tautologous := by
  constructor
  · intro h
    cases he : Rule.closeImplication d with
    | error e =>
        rw [he] at h
        cases h
    | ok e =>
        have hr : Rule.trivialImplication.replacement? = some Rule.closeImplication := rfl
        cases Rule.replaces_of_replacement? hr he with
        | close hlr => exact .implication hlr
  · rintro ⟨hlr⟩
    rw [Rule.closeImplication, if_pos hlr]
    rfl

theorem isImplication_of_tautologous (h : d.Tautologous) : isImplication d = true := by
  cases h
  rfl

theorem connectives_pos_of_isImplication (h : isImplication d = true) : 0 < d.connectives := by
  cases d with
  | null | primary => simp [isImplication, Diagram.operator?] at h
  | negation | binary => exact Nat.succ_pos _

theorem implicationEffort_eq_zero_iff (h : isImplication d = true) :
    implicationEffort d = 0 ↔ d.Tautologous := by
  have hpos := connectives_pos_of_isImplication h
  rw [implicationEffort, ← isOk_closeImplication_iff]
  by_cases hd : (Rule.closeImplication d).isOk = true
  · simp only [hd, if_true]
  · simp only [hd, Bool.false_eq_true, if_false, iff_false]
    exact Nat.ne_of_gt hpos

theorem foldr_implicationEffort_eq_zero_iff :
    g.foldr (implicationEffort · + ·) 0 = 0 ↔ ∀ d ∈ g, implicationEffort d = 0 := by
  induction g with
  | nil => simp
  | cons d g ih => rw [List.foldr_cons, Nat.add_eq_zero_iff, ih, List.forall_mem_cons]

theorem saturate_eq_zero_iff : saturate n = 0 ↔ n = 0 := by
  rw [saturate]
  omega

theorem estimate_implication_eq_zero_iff :
    implication.estimate g = .ok 0 ↔ ∀ d ∈ g, d.Tautologous := by
  rw [estimate]
  cases hi : g.findIdx? (!isImplication ·) with
  | some i =>
      obtain ⟨hlt, hnot, _⟩ := List.findIdx?_eq_some_iff_getElem.1 hi
      simp only [reduceCtorEq, false_iff]
      intro hall
      have himp := isImplication_of_tautologous (hall _ (List.getElem_mem hlt))
      rw [himp] at hnot
      cases hnot
  | none =>
      have himp : ∀ d ∈ g, isImplication d = true := by simpa using List.findIdx?_eq_none_iff.1 hi
      simp only [Except.ok.injEq, saturate_eq_zero_iff, foldr_implicationEffort_eq_zero_iff]
      exact forall₂_congr fun d hd => implicationEffort_eq_zero_iff (himp d hd)

end Strategy

namespace Rule

def applyTimes (rule : Rule) (a : Argument) : Nat → Goals → Except RuleError Goals
  | 0, g => .ok g
  | n + 1, g => do applyTimes rule a n (← rule.apply a g)

theorem applyTimes_succ_eq_ok_iff {rule : Rule} {a : Argument} :
    rule.applyTimes a (n + 1) g = .ok h ↔
      ∃ k, rule.apply a g = .ok k ∧ rule.applyTimes a n k = .ok h := by
  rw [applyTimes]
  constructor
  · exact bind_eq_ok
  · rintro ⟨k, hk, hh⟩
    rw [hk]
    exact hh

theorem apply_trivialImplication_first_iff :
    trivialImplication.apply (.single ⟨0, 0⟩) g = .ok h ↔ ∃ d, d.Tautologous ∧ g = d :: h := by
  constructor
  · intro ha
    obtain ⟨t, e, e', ht, hr, d, d', hd, hs, hd', hh⟩ :=
      exists_replaces_of_apply ha (by simp [replacement?])
    cases ht
    rw [Diagram.sub?_zero] at hs
    rw [Diagram.replaceAt?_zero] at hd'
    cases hs
    cases hd'
    cases hr with
    | close hlr =>
        obtain ⟨g₁, g₂, rfl, hlen⟩ := Goals.exists_middle hd
        obtain rfl := List.length_eq_zero_iff.1 hlen
        obtain rfl := Goals.eq_of_replaceSubgoal? hh
        exact ⟨_, .implication hlr, rfl⟩
  · rintro ⟨_, ⟨hlr⟩, rfl⟩
    refine apply_of_replaces (.close hlr) ⟨_, _, rfl, Diagram.sub?_zero _,
      Diagram.replaceAt?_zero _ _, ?_⟩
    exact Goals.replaceSubgoal?_middle [] h _ [.null]

theorem applyTimes_trivialImplication_iff :
    trivialImplication.applyTimes (.single ⟨0, 0⟩) n g = .ok h ↔
      ∃ closed : Goals, closed.length = n ∧ (∀ d ∈ closed, d.Tautologous) ∧ g = closed ++ h := by
  induction n generalizing g with
  | zero =>
      rw [applyTimes]
      constructor
      · intro hg
        exact ⟨[], rfl, by simp, Except.ok.inj hg⟩
      · rintro ⟨closed, hn, _, rfl⟩
        rw [List.length_eq_zero_iff.1 hn, List.nil_append]
  | succ n ih =>
      rw [applyTimes_succ_eq_ok_iff]
      constructor
      · rintro ⟨k, hk, hh⟩
        obtain ⟨d, hd, rfl⟩ := apply_trivialImplication_first_iff.1 hk
        obtain ⟨closed, rfl, hall, rfl⟩ := ih.1 hh
        exact ⟨d :: closed, rfl, List.forall_mem_cons.2 ⟨hd, hall⟩, rfl⟩
      · rintro ⟨closed, hn, hall, rfl⟩
        cases closed with
        | nil => cases hn
        | cons d closed =>
            obtain ⟨hd, hall⟩ := List.forall_mem_cons.1 hall
            exact ⟨closed ++ h, apply_trivialImplication_first_iff.2 ⟨d, hd, rfl⟩,
              ih.2 ⟨closed, Nat.succ.inj hn, hall, rfl⟩⟩

theorem applyTimes_length_iff :
    trivialImplication.applyTimes (.single ⟨0, 0⟩) g.length g = .ok h ↔
      (∀ d ∈ g, d.Tautologous) ∧ h = [] := by
  rw [applyTimes_trivialImplication_iff]
  constructor
  · rintro ⟨closed, hn, hall, hg⟩
    obtain rfl : h = [] := by
      rw [hg, List.length_append] at hn
      exact List.length_eq_zero_iff.1 (by omega)
    rw [hg, List.append_nil]
    exact ⟨hall, rfl⟩
  · rintro ⟨hall, rfl⟩
    exact ⟨g, rfl, hall, (List.append_nil g).symm⟩

end Rule

/-- The implication strategy estimates that nothing is left to do exactly if the whole first subgoal
can be closed as many times in a row as there are subgoals, and then this leaves no subgoal; that is,
if each subgoal is an implication between equivalent diagrams. -/
theorem Strategy.estimate_zero_iff_closes (t : Trace) :
    let n := t.current.length
    let closed := Rule.trivialImplication.applyTimes (.single ⟨0, 0⟩) n t.current
    (implication.estimate t.current = .ok 0 ↔ ∃ h, closed = .ok h) ∧
      (implication.estimate t.current = .ok 0 ↔ closed = .ok []) ∧
      (implication.estimate t.current = .ok 0 ↔
        ∀ d ∈ t.current, ∃ l r, d = .binary .implication l r ∧ l.Equivalent r) := by
  intro n closed
  have hclosed (h : Goals) : closed = .ok h ↔ (∀ d ∈ t.current, d.Tautologous) ∧ h = [] :=
    Rule.applyTimes_length_iff
  rw [estimate_implication_eq_zero_iff]
  simp only [hclosed, exists_eq_right, and_true, iff_self, Diagram.tautologous_iff]

example :
    let d := Diagram.binary .conjunction .null (.negation .null)
    let e := Diagram.binary .conjunction (.negation (.negation (.negation .null))) .null
    let g : Goals := [.binary .implication d e, .binary .implication .null .null]
    Strategy.implication.estimate g = .ok 0 ∧
      Rule.trivialImplication.applyTimes (.single ⟨0, 0⟩) 2 g = .ok [] ∧
      Strategy.implication.estimate [.binary .implication .null d] = .ok 3 := by
  decide

end SpiderDiagrams
