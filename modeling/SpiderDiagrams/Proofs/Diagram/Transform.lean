import SpiderDiagrams.Diagram.Transform
import SpiderDiagrams.Proofs.Diagram.Rewrites

namespace SpiderDiagrams

variable {σ : Type}

theorem Diagram.size_eq_one {d : Diagram} (h : d.operands = []) : d.size = 1 := by
  cases d with
  | null | primary => rfl
  | negation | binary => cases h

abbrev Callback := Visit × Answer

/-- The visitor that gives the same answers and keeps a list of them. -/
def Visitor.recorded (f : Visitor σ) : Visitor (σ × List Callback) := fun v s =>
  ((f v s.1).1, (f v s.1).2, s.2 ++ [(v, (f v s.1).1)])

namespace Visit

def operand (v : Visit) (occurrence childIndex : Nat) (e : Diagram) : Visit :=
  ⟨occurrence, childIndex, e, v.parents.map (v.diagram :: ·)⟩

def walk (v : Visit) (f : Visitor σ) (s : σ) : Walk σ :=
  v.diagram.walk f v.occurrence v.childIndex v.parents s

variable {v : Visit} {f : Visitor σ} {s : σ}

theorem walk_of_replace {e : Diagram} (ha : (f v s).1.action = .replace e) :
    v.walk f s = ⟨e, (f v s).1.stop, (f v s).2⟩ := by
  rw [walk, Diagram.walk.eq_def]
  simp only [ha]

theorem walk_of_keep
    (ha : (f v s).1.action = .keep ∨
      (f v s).1.action = .descend ∧ ((f v s).1.stop = true ∨ v.diagram.operands = [])) :
    v.walk f s = ⟨v.diagram, (f v s).1.stop, (f v s).2⟩ := by
  obtain ⟨o, k, d, ps⟩ := v
  rw [walk, Diagram.walk.eq_def]
  rcases ha with ha | ⟨ha, hs | hd⟩
  · simp only [ha]
  · simp only [ha, hs, if_true]
  · simp only [ha]
    cases hs : (f ⟨o, k, d, ps⟩ s).1.stop with
    | true => rfl
    | false =>
        cases d with
        | null | primary => rfl
        | negation | binary => cases hd

theorem walk_of_negation {e : Diagram} (hv : v.diagram = .negation e)
    (ha : (f v s).1.action = .descend) (hs : (f v s).1.stop = false) :
    v.walk f s =
      let w := (v.operand (v.occurrence + 1) 0 e).walk f (f v s).2
      ⟨.negation w.diagram, w.stopped, w.state⟩ := by
  obtain ⟨o, k, d, ps⟩ := v
  obtain rfl : d = .negation e := hv
  rw [walk, Diagram.walk.eq_def]
  simp only [ha, hs]
  rfl

theorem walk_of_binary {c : Connective} {l r : Diagram} (hv : v.diagram = .binary c l r)
    (ha : (f v s).1.action = .descend) (hs : (f v s).1.stop = false) :
    v.walk f s =
      let u := (v.operand (v.occurrence + 1) 0 l).walk f (f v s).2
      if u.stopped then ⟨.binary c u.diagram r, true, u.state⟩
      else
        let w := (v.operand (v.occurrence + 1 + l.size) 1 r).walk f u.state
        ⟨.binary c u.diagram w.diagram, w.stopped, w.state⟩ := by
  obtain ⟨o, k, d, ps⟩ := v
  obtain rfl : d = .binary c l r := hv
  rw [walk, Diagram.walk.eq_def]
  simp only [ha, hs]
  rfl

end Visit

/-- The ways in which a walk goes on from a visit: its callbacks in order, the diagram that it
leaves, and whether it was stopped. -/
inductive Runs : Visit → List Callback → Diagram → Bool → Prop
  | replace {v : Visit} {a : Answer} {e : Diagram} (ha : a.action = .replace e) :
      Runs v [(v, a)] e a.stop
  | keep {v : Visit} {a : Answer}
      (ha : a.action = .keep ∨ a.action = .descend ∧ (a.stop = true ∨ v.diagram.operands = [])) :
      Runs v [(v, a)] v.diagram a.stop
  | negation {v : Visit} {a : Answer} {e e' : Diagram} {log : List Callback} {stopped : Bool}
      (hv : v.diagram = .negation e) (ha : a.action = .descend) (hs : a.stop = false)
      (h : Runs (v.operand (v.occurrence + 1) 0 e) log e' stopped) :
      Runs v ((v, a) :: log) (.negation e') stopped
  | left {v : Visit} {a : Answer} {c : Connective} {l r l' : Diagram} {log : List Callback}
      (hv : v.diagram = .binary c l r) (ha : a.action = .descend) (hs : a.stop = false)
      (h : Runs (v.operand (v.occurrence + 1) 0 l) log l' true) :
      Runs v ((v, a) :: log) (.binary c l' r) true
  | both {v : Visit} {a : Answer} {c : Connective} {l r l' r' : Diagram} {log log' : List Callback}
      {stopped : Bool} (hv : v.diagram = .binary c l r) (ha : a.action = .descend)
      (hs : a.stop = false) (hl : Runs (v.operand (v.occurrence + 1) 0 l) log l' false)
      (hr : Runs (v.operand (v.occurrence + 1 + l.size) 1 r) log' r' stopped) :
      Runs v ((v, a) :: (log ++ log')) (.binary c l' r') stopped

namespace Visit

variable {v : Visit} {f : Visitor σ} {s : σ} {log log' : List Callback} {e l r : Diagram}
  {c : Connective}

def Makes (v : Visit) (f : Visitor σ) (s : σ) (log : List Callback) : Prop :=
  Runs v log (v.walk f s).diagram (v.walk f s).stopped ∧ ∀ before,
    v.walk f.recorded (s, before) =
      ⟨(v.walk f s).diagram, (v.walk f s).stopped, (v.walk f s).state, before ++ log⟩

theorem makes_of_replace (ha : (f v s).1.action = .replace e) : v.Makes f s [(v, (f v s).1)] := by
  rw [Makes, walk_of_replace ha]
  exact ⟨.replace ha, fun before => walk_of_replace (f := f.recorded) ha⟩

theorem makes_of_keep
    (ha : (f v s).1.action = .keep ∨
      (f v s).1.action = .descend ∧ ((f v s).1.stop = true ∨ v.diagram.operands = [])) :
    v.Makes f s [(v, (f v s).1)] := by
  rw [Makes, walk_of_keep ha]
  exact ⟨.keep ha, fun before => walk_of_keep (f := f.recorded) ha⟩

theorem recorded_state (f : Visitor σ) (v : Visit) (s : σ) (before : List Callback) :
    (f.recorded v (s, before)).2 = ((f v s).2, before ++ [(v, (f v s).1)]) := rfl

theorem makes_of_negation (hv : v.diagram = .negation e) (ha : (f v s).1.action = .descend)
    (hs : (f v s).1.stop = false)
    (h : (v.operand (v.occurrence + 1) 0 e).Makes f (f v s).2 log) :
    v.Makes f s ((v, (f v s).1) :: log) := by
  rw [Makes, walk_of_negation hv ha hs]
  refine ⟨.negation hv ha hs h.1, ?_⟩
  intro before
  rw [walk_of_negation (f := f.recorded) (s := (s, before)) hv ha hs, recorded_state, h.2,
    List.append_assoc]
  rfl

theorem makes_of_left (hv : v.diagram = .binary c l r) (ha : (f v s).1.action = .descend)
    (hs : (f v s).1.stop = false)
    (h : (v.operand (v.occurrence + 1) 0 l).Makes f (f v s).2 log)
    (hl : ((v.operand (v.occurrence + 1) 0 l).walk f (f v s).2).stopped = true) :
    v.Makes f s ((v, (f v s).1) :: log) := by
  rw [Makes, walk_of_binary hv ha hs]
  simp only [hl, if_true]
  have hruns := h.1
  rw [hl] at hruns
  refine ⟨.left hv ha hs hruns, ?_⟩
  intro before
  rw [walk_of_binary (f := f.recorded) (s := (s, before)) hv ha hs, recorded_state, h.2,
    List.append_assoc]
  simp only [hl, if_true]
  rfl

theorem makes_of_both (hv : v.diagram = .binary c l r) (ha : (f v s).1.action = .descend)
    (hs : (f v s).1.stop = false)
    (h : (v.operand (v.occurrence + 1) 0 l).Makes f (f v s).2 log)
    (hl : ((v.operand (v.occurrence + 1) 0 l).walk f (f v s).2).stopped = false)
    (hr : (v.operand (v.occurrence + 1 + l.size) 1 r).Makes f
      ((v.operand (v.occurrence + 1) 0 l).walk f (f v s).2).state log') :
    v.Makes f s ((v, (f v s).1) :: (log ++ log')) := by
  rw [Makes, walk_of_binary hv ha hs]
  simp only [hl, Bool.false_eq_true, if_false]
  have hruns := h.1
  rw [hl] at hruns
  refine ⟨.both hv ha hs hruns hr.1, ?_⟩
  intro before
  rw [walk_of_binary (f := f.recorded) (s := (s, before)) hv ha hs, recorded_state, h.2]
  simp only [hl, Bool.false_eq_true, if_false]
  rw [hr.2, List.append_assoc, List.append_assoc]
  rfl

theorem exists_makes (f : Visitor σ) (v : Visit) (s : σ) : ∃ log, v.Makes f s log := by
  induction hn : v.diagram.size using Nat.strongRecOn generalizing v s with
  | ind n ih =>
      cases ha : (f v s).1.action with
      | replace e => exact ⟨_, makes_of_replace ha⟩
      | keep => exact ⟨_, makes_of_keep (.inl ha)⟩
      | descend =>
          cases hs : (f v s).1.stop with
          | true => exact ⟨_, makes_of_keep (.inr ⟨ha, .inl hs⟩)⟩
          | false =>
              cases hv : v.diagram with
              | null | primary => exact ⟨_, makes_of_keep (.inr ⟨ha, .inr (by rw [hv]; rfl)⟩)⟩
              | negation e =>
                  rw [hv, Diagram.size] at hn
                  obtain ⟨log, h⟩ := ih e.size (by omega) (v.operand (v.occurrence + 1) 0 e)
                    (f v s).2 rfl
                  exact ⟨_, makes_of_negation hv ha hs h⟩
              | binary c l r =>
                  rw [hv, Diagram.size] at hn
                  obtain ⟨log, h⟩ := ih l.size (by omega) (v.operand (v.occurrence + 1) 0 l)
                    (f v s).2 rfl
                  cases hl : ((v.operand (v.occurrence + 1) 0 l).walk f (f v s).2).stopped with
                  | true => exact ⟨_, makes_of_left hv ha hs h hl⟩
                  | false =>
                      obtain ⟨log', hr⟩ := ih r.size (by omega)
                        (v.operand (v.occurrence + 1 + l.size) 1 r) _ rfl
                      exact ⟨_, makes_of_both hv ha hs h hl hr⟩

end Visit

def Visit.Covers (v : Visit) (c : Callback) : Prop :=
  ∃ i, c.1.occurrence = v.occurrence + i ∧ v.diagram.sub? i = some c.1.diagram

namespace Visit.Covers

variable {v : Visit} {c : Callback} {k : Connective} {e l r : Diagram}

theorem self (v : Visit) (a : Answer) : v.Covers (v, a) := ⟨0, rfl, Diagram.sub?_zero _⟩

theorem of_negation (hv : v.diagram = .negation e)
    (h : (v.operand (v.occurrence + 1) 0 e).Covers c) : v.Covers c := by
  obtain ⟨i, hi, hs⟩ := h
  refine ⟨i + 1, hi.trans (Nat.add_right_comm _ 1 i), ?_⟩
  rw [hv]
  exact hs

theorem of_left (hv : v.diagram = .binary k l r)
    (h : (v.operand (v.occurrence + 1) 0 l).Covers c) : v.Covers c := by
  obtain ⟨i, hi, hs⟩ := h
  have hl : l.sub? i = some c.1.diagram := hs
  refine ⟨i + 1, hi.trans (Nat.add_right_comm _ 1 i), ?_⟩
  rw [hv, Diagram.sub?_left (Diagram.lt_size_of_sub? hl)]
  exact hl

theorem of_right (hv : v.diagram = .binary k l r)
    (h : (v.operand (v.occurrence + 1 + l.size) 1 r).Covers c) : v.Covers c := by
  obtain ⟨i, hi, hs⟩ := h
  have hi' : v.occurrence + 1 + l.size + i = v.occurrence + (l.size + i + 1) := by omega
  refine ⟨l.size + i + 1, hi.trans hi', ?_⟩
  rw [hv, Diagram.sub?_right]
  exact hs

theorem le (h : v.Covers c) : v.occurrence ≤ c.1.occurrence := by
  obtain ⟨i, hi, _⟩ := h
  rw [hi]
  exact Nat.le_add_right _ _

theorem end_le (h : v.Covers c) :
    c.1.occurrence + c.1.diagram.size ≤ v.occurrence + v.diagram.size := by
  obtain ⟨i, hi, hs⟩ := h
  have hle := Diagram.add_size_le hs
  omega

theorem lt_end (h : v.Covers c) : c.1.occurrence < v.occurrence + v.diagram.size := by
  have hle := h.end_le
  have hpos := c.1.diagram.size_pos
  omega

end Visit.Covers

/-- The callbacks do not keep a walk from the given number: none of those before it stops the walk,
and those whose diagrams have it descend. -/
def Clear (log : List Callback) (j : Nat) : Prop :=
  ∀ c ∈ log, c.1.occurrence < j →
    c.2.stop = false ∧ (j < c.1.occurrence + c.1.diagram.size → c.2.action = .descend)

def Visited (log : List Callback) (j : Nat) : Prop := ∃ c ∈ log, c.1.occurrence = j

def replacements (log : List Callback) : List (Nat × Diagram) :=
  log.filterMap fun c => match c.2.action with
    | .replace e => some (c.1.occurrence, e)
    | _ => none

section

variable {v : Visit} {a : Answer} {log log' : List Callback} {j : Nat}

theorem clear_append : Clear (log ++ log') j ↔ Clear log j ∧ Clear log' j := List.forall_mem_append

theorem visited_append : Visited (log ++ log') j ↔ Visited log j ∨ Visited log' j := by
  simp only [Visited, List.mem_append, or_and_right, exists_or]

theorem clear_of_le (h : ∀ c ∈ log, j ≤ c.1.occurrence) : Clear log j :=
  fun c hc hlt => absurd (h c hc) (Nat.not_le_of_lt hlt)

theorem not_visited_of_lt (h : ∀ c ∈ log, j < c.1.occurrence) : ¬ Visited log j := by
  rintro ⟨c, hc, rfl⟩
  exact Nat.lt_irrefl _ (h c hc)

theorem not_visited_of_gt (h : ∀ c ∈ log, c.1.occurrence < j) : ¬ Visited log j := by
  rintro ⟨c, hc, rfl⟩
  exact Nat.lt_irrefl _ (h c hc)

theorem visited_cons (hj : v.occurrence < j) : Visited ((v, a) :: log) j ↔ Visited log j := by
  constructor
  · rintro ⟨c, hc, ho⟩
    rcases List.mem_cons.1 hc with rfl | hc
    · exact absurd ho (Nat.ne_of_lt hj)
    · exact ⟨c, hc, ho⟩
  · rintro ⟨c, hc, ho⟩
    exact ⟨c, List.mem_cons_of_mem _ hc, ho⟩

theorem clear_cons (ha : a.action = .descend) (hs : a.stop = false) :
    Clear ((v, a) :: log) j ↔ Clear log j := by
  constructor
  · intro h c hc
    exact h c (List.mem_cons_of_mem _ hc)
  · intro h c hc
    rcases List.mem_cons.1 hc with rfl | hc
    · exact fun _ => ⟨hs, fun _ => ha⟩
    · exact h c hc

theorem replacements_cons (ha : a.action = .descend) :
    replacements ((v, a) :: log) = replacements log := by
  simp [replacements, ha]

theorem replacements_append : replacements (log ++ log') = replacements log ++ replacements log' :=
  List.filterMap_append

end

namespace Runs

variable {v : Visit} {a : Answer} {log : List Callback} {d : Diagram} {stopped : Bool} {j : Nat}

theorem covers (h : Runs v log d stopped) : ∀ c ∈ log, v.Covers c := by
  induction h with
  | replace | keep => exact List.forall_mem_singleton.2 (.self _ _)
  | negation hv _ _ _ ih =>
      exact List.forall_mem_cons.2 ⟨.self _ _, fun c hc => .of_negation hv (ih c hc)⟩
  | left hv _ _ _ ih => exact List.forall_mem_cons.2 ⟨.self _ _, fun c hc => .of_left hv (ih c hc)⟩
  | both hv _ _ _ _ ihl ihr =>
      refine List.forall_mem_cons.2 ⟨.self _ _, List.forall_mem_append.2 ⟨?_, ?_⟩⟩
      · exact fun c hc => .of_left hv (ihl c hc)
      · exact fun c hc => .of_right hv (ihr c hc)

theorem sorted (h : Runs v log d stopped) :
    log.Pairwise fun a b => a.1.occurrence < b.1.occurrence := by
  induction h with
  | replace | keep => exact List.pairwise_singleton _ _
  | negation _ _ _ h ih => exact List.pairwise_cons.2 ⟨fun c hc => (h.covers c hc).le, ih⟩
  | left _ _ _ h ih => exact List.pairwise_cons.2 ⟨fun c hc => (h.covers c hc).le, ih⟩
  | both _ _ _ hl hr ihl ihr =>
      refine List.pairwise_cons.2 ⟨?_, List.pairwise_append.2 ⟨ihl, ihr, ?_⟩⟩
      · intro c hc
        rcases List.mem_append.1 hc with hc | hc
        · exact (hl.covers c hc).le
        · exact Nat.le_trans (Nat.le_add_right _ _) (hr.covers c hc).le
      · intro b hb c hc
        exact Nat.lt_of_lt_of_le (hl.covers b hb).lt_end (hr.covers c hc).le

theorem stopped_eq (h : Runs v log d stopped) : stopped = log.any (·.2.stop) := by
  induction h with
  | replace | keep => simp
  | negation _ _ hs _ ih => simp [hs, ih]
  | left _ _ hs _ ih => simp [hs, ← ih]
  | both _ _ hs _ _ ihl ihr => simp only [List.any_cons, List.any_append, hs, ← ihl, ← ihr, Bool.false_or]

theorem visited_root (h : Runs v log d stopped) :
    Visited log v.occurrence ↔ Clear log v.occurrence := by
  refine iff_of_true ?_ (clear_of_le fun c hc => (h.covers c hc).le)
  cases h with
  | replace | keep | negation | left | both => exact ⟨_, List.mem_cons_self, rfl⟩

theorem not_visited_beyond (h : Runs v log d stopped) (hj : v.occurrence + v.diagram.size ≤ j) :
    ¬ Visited log j := by
  rintro ⟨c, hc, rfl⟩
  exact absurd (h.covers c hc).lt_end (Nat.not_lt_of_le hj)

theorem clear_beyond (h : Runs v log d false) (hj : v.occurrence + v.diagram.size ≤ j) :
    Clear log j := by
  intro c hc _
  refine ⟨by simpa using List.any_eq_false.1 h.stopped_eq.symm c hc, ?_⟩
  intro hlt
  exact absurd (Nat.le_trans (h.covers c hc).end_le hj) (Nat.not_le_of_lt hlt)

theorem not_clear_beyond (h : Runs v log d true) (hj : v.occurrence + v.diagram.size ≤ j) :
    ¬ Clear log j := by
  intro hclear
  obtain ⟨c, hc, hs⟩ := List.any_eq_true.1 h.stopped_eq.symm
  have hlt : c.1.occurrence < j := Nat.lt_of_lt_of_le (h.covers c hc).lt_end hj
  rw [(hclear c hc hlt).1] at hs
  cases hs

theorem visited_singleton (hlt : v.occurrence < j) (hj : j < v.occurrence + v.diagram.size)
    (ha : a.stop = false → a.action ≠ .descend) : Visited [(v, a)] j ↔ Clear [(v, a)] j := by
  refine iff_of_false (not_visited_of_gt (List.forall_mem_singleton.2 hlt)) ?_
  intro hclear
  obtain ⟨hstop, hdescend⟩ := hclear (v, a) List.mem_cons_self hlt
  exact ha hstop (hdescend hj)

theorem visited_iff (h : Runs v log d stopped) (hj : v.occurrence ≤ j)
    (hj' : j < v.occurrence + v.diagram.size) : Visited log j ↔ Clear log j := by
  induction h with
  | @replace v a e ha =>
      rcases Nat.eq_or_lt_of_le hj with rfl | hlt
      · exact visited_root (.replace ha)
      apply visited_singleton hlt hj'
      rw [ha]
      exact fun _ => nofun
  | @keep v a ha =>
      rcases Nat.eq_or_lt_of_le hj with rfl | hlt
      · exact visited_root (.keep ha)
      apply visited_singleton hlt hj'
      intro hstop hdescend
      rcases ha with ha | ⟨_, hs | hd⟩
      · cases ha.symm.trans hdescend
      · cases hs.symm.trans hstop
      · have hsize := Diagram.size_eq_one hd
        omega
  | @negation v a e e' log stopped hv ha hs h ih =>
      rcases Nat.eq_or_lt_of_le hj with rfl | hlt
      · exact visited_root (.negation hv ha hs h)
      rw [visited_cons hlt, clear_cons ha hs]
      rw [hv, Diagram.size] at hj'
      exact ih hlt (show j < v.occurrence + 1 + e.size by omega)
  | @left v a c l r l' log hv ha hs h ih =>
      rcases Nat.eq_or_lt_of_le hj with rfl | hlt
      · exact visited_root (.left hv ha hs h)
      rw [visited_cons hlt, clear_cons ha hs]
      by_cases hl : j < v.occurrence + 1 + l.size
      · exact ih hlt hl
      · have hbeyond := Nat.le_of_not_lt hl
        exact iff_of_false (h.not_visited_beyond hbeyond) (h.not_clear_beyond hbeyond)
  | @both v a c l r l' r' log log' stopped hv ha hs hl hr ihl ihr =>
      rcases Nat.eq_or_lt_of_le hj with rfl | hlt
      · exact visited_root (.both hv ha hs hl hr)
      rw [visited_cons hlt, clear_cons ha hs, visited_append, clear_append]
      rw [hv, Diagram.size] at hj'
      by_cases hjl : j < v.occurrence + 1 + l.size
      · have hright : ∀ c ∈ log', j < c.1.occurrence :=
          fun c hc => Nat.lt_of_lt_of_le hjl (hr.covers c hc).le
        rw [or_iff_left (not_visited_of_lt hright),
          and_iff_left (clear_of_le fun c hc => Nat.le_of_lt (hright c hc))]
        exact ihl hlt hjl
      · have hbeyond := Nat.le_of_not_lt hjl
        rw [or_iff_right (hl.not_visited_beyond hbeyond), and_iff_right (hl.clear_beyond hbeyond)]
        exact ihr hbeyond (show j < v.occurrence + 1 + l.size + r.size by omega)

theorem rewrites (h : Runs v log d stopped) :
    ∃ rs, replacements log = rs.map (Diagram.shifted v.occurrence) ∧ v.diagram.Rewrites rs d := by
  induction h with
  | @replace v a e ha =>
      refine ⟨[(0, e)], ?_, .root _ _⟩
      simp [replacements, ha, Diagram.shifted]
  | @keep v a ha =>
      refine ⟨[], ?_, .refl _⟩
      rcases ha with ha | ⟨ha, _⟩ <;> simp [replacements, ha]
  | @negation v a e e' log stopped hv ha _ _ ih =>
      obtain ⟨rs, hrs, hd⟩ := ih
      rw [replacements_cons ha, hrs, hv]
      exact ⟨rs.map (Diagram.shifted 1), (Diagram.map_shifted rs 1 _).symm, hd.negation⟩
  | @left v a c l r l' log hv ha _ _ ih =>
      obtain ⟨rs, hrs, hl⟩ := ih
      rw [replacements_cons ha, hrs, hv]
      refine ⟨_, ?_, hl.binary c (.refl r)⟩
      rw [List.map_nil, List.append_nil, Diagram.map_shifted]
      rfl
  | @both v a c l r l' r' log log' stopped hv ha _ _ _ ihl ihr =>
      obtain ⟨rs, hrs, hl⟩ := ihl
      obtain ⟨ts, hts, hr⟩ := ihr
      rw [replacements_cons ha, replacements_append, hrs, hts, hv]
      refine ⟨_, ?_, hl.binary c hr⟩
      rw [List.map_append, Diagram.map_shifted, Diagram.map_shifted]
      show _ ++ ts.map (Diagram.shifted (v.occurrence + 1 + l.size)) = _
      rw [Nat.add_assoc, Nat.add_comm 1]
      rfl

end Runs

namespace Diagram

def callbacks (d : Diagram) (f : Visitor σ) (trackParents : Bool) (s : σ) : List Callback :=
  (d.transform f.recorded trackParents (s, [])).state.2

theorem transform_recorded (f : Visitor σ) (trackParents : Bool) (d : Diagram) (s : σ) :
    let w := d.transform f trackParents s
    let log := d.callbacks f trackParents s
    d.transform f.recorded trackParents (s, []) = ⟨w.diagram, w.stopped, w.state, log⟩ ∧
      Runs ⟨0, 0, d, if trackParents then some [] else none⟩ log w.diagram w.stopped := by
  intro w log
  obtain ⟨log', hr, hw⟩ :=
    Visit.exists_makes f ⟨0, 0, d, if trackParents then some [] else none⟩ s
  obtain rfl : log = log' := congrArg (fun w : Walk (σ × List Callback) => w.state.2) (hw [])
  exact ⟨hw [], hr⟩

theorem clear_iff {d : Diagram} {log : List Callback} {j : Nat}
    (hsub : ∀ c ∈ log, d.sub? c.1.occurrence = some c.1.diagram) :
    Clear log j ↔ (∀ c ∈ log, c.1.occurrence < j → c.2.stop = false) ∧
      ∀ c ∈ log, d.IsAncestor c.1.occurrence j → c.2.action = .descend := by
  constructor
  · intro h
    refine ⟨fun c hc hlt => (h c hc hlt).1, ?_⟩
    intro c hc ha
    obtain ⟨hlt, hend⟩ := (isAncestor_iff (hsub c hc)).1 ha
    exact (h c hc hlt).2 hend
  · rintro ⟨hstop, hdescend⟩ c hc hlt
    exact ⟨hstop c hc hlt, fun hend => hdescend c hc ((isAncestor_iff (hsub c hc)).2 ⟨hlt, hend⟩)⟩

/-- The law of transformations. The visits come by increasing number and show the sub-diagrams with
these numbers; a number is visited if and only if the walk was not stopped before it and descended
at all sub-diagrams above it; and the result is the diagram with the replacements that were asked
for, made from the largest number to the smallest. -/
theorem transform_follows_answers (f : Visitor σ) (trackParents : Bool) (d : Diagram) (s : σ) :
    let w := d.transform f trackParents s
    let log := d.callbacks f trackParents s
    d.transform f.recorded trackParents (s, []) = ⟨w.diagram, w.stopped, w.state, log⟩ ∧
      (log.Pairwise fun a b => a.1.occurrence < b.1.occurrence) ∧
      (∀ c ∈ log, d.sub? c.1.occurrence = some c.1.diagram) ∧
      (∀ j < d.size, (∃ c ∈ log, c.1.occurrence = j) ↔
        (∀ c ∈ log, c.1.occurrence < j → c.2.stop = false) ∧
          ∀ c ∈ log, d.IsAncestor c.1.occurrence j → c.2.action = .descend) ∧
      d.replaceEach (replacements log) = some w.diagram := by
  intro w log
  obtain ⟨hrec, hr⟩ := transform_recorded f trackParents d s
  have hsub : ∀ c ∈ log, d.sub? c.1.occurrence = some c.1.diagram := by
    intro c hc
    obtain ⟨i, hi, hs⟩ := hr.covers c hc
    rw [hi, Nat.zero_add]
    exact hs
  refine ⟨hrec, hr.sorted, hsub, ?_, ?_⟩
  · intro j hj
    have hvisited := hr.visited_iff (Nat.zero_le j) (by rwa [Nat.zero_add])
    exact hvisited.trans (clear_iff hsub)
  · obtain ⟨rs, hrs, hd⟩ := hr.rewrites
    have hzero : rs.map (shifted 0) = rs := List.map_id _
    rw [hrs]
    exact (congrArg d.replaceEach hzero).trans hd.result

theorem transform_follows_answers_stopped :
    let f : Visitor Nat := fun v n =>
      (if v.occurrence = 1 then ⟨.keep, false⟩
        else if n = 3 then ⟨.replace (.negation .null), true⟩ else ⟨.descend, false⟩, n + 1)
    let d : Diagram := .binary .conjunction (.negation .null) (.binary .disjunction .null .null)
    let log := d.callbacks f true 0
    log.map (·.1.occurrence) = [0, 1, 3, 4] ∧ 5 < d.size ∧
      ¬ ((∀ c ∈ log, c.1.occurrence < 5 → c.2.stop = false) ∧
        ∀ c ∈ log, d.IsAncestor c.1.occurrence 5 → c.2.action = .descend) ∧
      d.replaceEach [(4, .negation .null)] = some (d.transform f true 0).diagram := by
  intro f d log
  have hlog : log.map (·.1.occurrence) = [0, 1, 3, 4] := rfl
  obtain ⟨_, _, _, hvisited, hresult⟩ := transform_follows_answers f true d 0
  have hnot : ¬ ∃ c ∈ log, c.1.occurrence = 5 := by
    rw [← List.mem_map, hlog]
    decide
  exact ⟨hlog, by decide, fun h => hnot ((hvisited 5 (by decide)).2 h), hresult⟩

end Diagram

end SpiderDiagrams
