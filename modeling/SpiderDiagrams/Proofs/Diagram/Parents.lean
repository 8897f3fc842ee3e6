import Mathlib.Data.List.Sort
import SpiderDiagrams.Proofs.Diagram.Transform

namespace SpiderDiagrams

namespace Diagram

variable {d e : Diagram} {i j k m : Nat} {o : Occurrence}

/-- The sub-diagrams with smaller numbers in whose intervals the number is, by decreasing number. -/
def enclosing (d : Diagram) (j : Nat) : List Occurrence :=
  ((List.range j).reverse.filterMap d.occurrence?).filter fun o => j < o.index + o.diagram.size

theorem occurrence?_eq_some_iff :
    d.occurrence? i = some o ↔ o.index = i ∧ d.sub? i = some o.diagram := by
  rw [occurrence?, Option.map_eq_some_iff]
  constructor
  · rintro ⟨e, he, rfl⟩
    exact ⟨rfl, he⟩
  · rintro ⟨rfl, hs⟩
    exact ⟨o.diagram, hs, rfl⟩

theorem mem_enclosing : o ∈ d.enclosing j ↔
    o.index < j ∧ d.sub? o.index = some o.diagram ∧ j < o.index + o.diagram.size := by
  simp only [enclosing, List.mem_filter, List.mem_filterMap, List.mem_reverse, List.mem_range,
    occurrence?_eq_some_iff, decide_eq_true_eq]
  constructor
  · rintro ⟨⟨i, hi, rfl, hs⟩, hj⟩
    exact ⟨hi, hs, hj⟩
  · rintro ⟨hi, hs, hj⟩
    exact ⟨⟨o.index, hi, rfl, hs⟩, hj⟩

theorem sorted_enclosing (d : Diagram) (j : Nat) :
    (d.enclosing j).Pairwise fun a b => b.index < a.index := by
  apply List.Pairwise.filter
  rw [List.pairwise_filterMap, List.pairwise_reverse]
  apply List.pairwise_lt_range.imp
  intro i k hik a ha b hb
  rw [(occurrence?_eq_some_iff.1 ha).1, (occurrence?_eq_some_iff.1 hb).1]
  exact hik

theorem enclosing_eq {l : List Occurrence} (hl : l.Pairwise fun a b => b.index < a.index)
    (h : ∀ o, o ∈ d.enclosing j ↔ o ∈ l) : d.enclosing j = l := by
  have : Std.Irrefl fun a b : Occurrence => b.index < a.index := ⟨fun a => Nat.lt_irrefl a.index⟩
  have : Std.Antisymm fun a b : Occurrence => b.index < a.index :=
    ⟨fun _ _ hab hba => absurd hab (Nat.lt_asymm hba)⟩
  exact (sorted_enclosing d j).eq_of_mem_iff hl h

/-- What encloses a number within a sub-diagram: parts of the sub-diagram, and then what encloses the
sub-diagram itself. -/
theorem enclosing_add (hs : d.sub? i = some e) (hj : j < e.size) :
    d.enclosing (i + j) =
      (e.enclosing j).map (fun o => ⟨i + o.index, o.diagram⟩) ++ d.enclosing i := by
  apply enclosing_eq
  · refine List.pairwise_append.2 ⟨?_, sorted_enclosing d i, ?_⟩
    · rw [List.pairwise_map]
      exact (sorted_enclosing e j).imp fun hab => Nat.add_lt_add_left hab i
    · intro a ha b hb
      obtain ⟨o, _, rfl⟩ := List.mem_map.1 ha
      exact Nat.lt_of_lt_of_le (mem_enclosing.1 hb).1 (Nat.le_add_right _ _)
  · intro o
    rw [List.mem_append, List.mem_map, mem_enclosing, mem_enclosing]
    constructor
    · rintro ⟨hlt, ho, hin⟩
      by_cases hi : o.index < i
      · exact .inr ⟨hi, ho, by omega⟩
      · refine .inl ⟨⟨o.index - i, o.diagram⟩, mem_enclosing.2 ⟨?_, ?_, ?_⟩, ?_⟩
        · show o.index - i < j
          omega
        · show e.sub? (o.index - i) = some o.diagram
          rw [← sub?_add hs (by omega), Nat.add_sub_cancel' (by omega)]
          exact ho
        · show j < o.index - i + o.diagram.size
          omega
        · obtain ⟨n, f⟩ := o
          have hn : i + (n - i) = n := Nat.add_sub_cancel' (Nat.le_of_not_lt hi)
          simp only [hn]
    · rintro (⟨a, ha, rfl⟩ | ⟨hlt, ho, hin⟩)
      · obtain ⟨hlt, ha, hin⟩ := mem_enclosing.1 ha
        refine ⟨Nat.add_lt_add_left hlt i, ?_, ?_⟩
        · rw [sub?_add hs (Nat.lt_trans hlt hj)]
          exact ha
        · show i + j < i + a.index + a.diagram.size
          omega
      · -- the sub-diagram lies wholly within what encloses its number
        have hpart : o.diagram.sub? (i - o.index) = some e := by
          rw [← sub?_add ho (by omega), Nat.add_sub_cancel' (Nat.le_of_lt hlt)]
          exact hs
        have hle := add_size_le hpart
        exact ⟨by omega, ho, by omega⟩

theorem enclosing_operand (hk : k ∈ e.operandOffsets) : e.enclosing k = [⟨0, e⟩] := by
  apply enclosing_eq (List.pairwise_singleton _ _)
  rintro ⟨n, f⟩
  rw [List.mem_singleton, mem_enclosing]
  constructor
  · rintro ⟨hlt, hs, hin⟩
    dsimp only at hlt hs hin
    obtain rfl : n = 0 := by
      cases e with
      | null | primary => cases hk
      | negation e =>
          rw [operandOffsets, List.mem_singleton] at hk
          omega
      | binary c l r =>
          rw [operandOffsets, List.mem_cons, List.mem_singleton] at hk
          rcases hk with rfl | rfl
          · omega
          · cases n with
            | zero => rfl
            | succ n =>
                rw [sub?_left (by omega)] at hs
                have hle := add_size_le hs
                omega
    rw [sub?_zero] at hs
    rw [Option.some.inj hs]
  · rintro ⟨⟩
    have hb := operandOffset_bounds hk
    exact ⟨hb.1, sub?_zero e, by dsimp only; omega⟩

theorem isSome_operator?_of_mem_enclosing (h : o ∈ d.enclosing j) :
    o.diagram.operator?.isSome = true := by
  obtain ⟨hlt, _, hin⟩ := mem_enclosing.1 h
  cases ho : o.diagram with
  | null | primary =>
      rw [ho, size] at hin
      omega
  | negation | binary => rfl

theorem exists_head?_enclosing (hpos : 0 < j) (hj : j < d.size) :
    ∃ o, (d.enclosing j).head? = some o := by
  have hroot : (⟨0, d⟩ : Occurrence) ∈ d.enclosing j :=
    mem_enclosing.2 ⟨hpos, sub?_zero d, by dsimp only; omega⟩
  obtain ⟨o, l, hl⟩ := List.exists_cons_of_ne_nil (List.ne_nil_of_mem hroot)
  exact ⟨o, by rw [hl]; rfl⟩

theorem nodup_operandOffsets (e : Diagram) : e.operandOffsets.Nodup := by
  cases e with
  | null | primary => exact List.nodup_nil
  | negation e => exact List.pairwise_singleton _ _
  | binary c l r =>
      have hpos := l.size_pos
      simp only [operandOffsets, List.nodup_cons, List.mem_singleton, List.not_mem_nil,
        not_false_eq_true, List.nodup_nil, and_true]
      omega

end Diagram

namespace Visit

variable {v c : Visit} {e : Diagram} {i k m : Nat}

/-- The second visit is made so many numbers after the first, to a sub-diagram of what the first is
made to, and has its place there as its parents and its child index say. -/
structure Leads (v : Visit) (i : Nat) (c : Visit) : Prop where
  occurrence : c.occurrence = v.occurrence + i
  diagram : v.diagram.sub? i = some c.diagram
  parents : c.parents = v.parents.map ((v.diagram.enclosing i).map (·.diagram) ++ ·)
  first : i = 0 → c.childIndex = v.childIndex
  child : ∀ o, (v.diagram.enclosing i).head? = some o →
    ∃ k, o.diagram.operandOffsets[c.childIndex]? = some k ∧ i = o.index + k

theorem Leads.self (v : Visit) : v.Leads 0 v where
  occurrence := rfl
  diagram := Diagram.sub?_zero _
  parents := by
    cases h : v.parents with
    | none => rfl
    | some ps => rfl
  first _ := rfl
  child := nofun

theorem Leads.of_operand (hk : v.diagram.operandOffsets[m]? = some k)
    (he : v.diagram.sub? k = some e) (h : (v.operand (v.occurrence + k) m e).Leads i c) :
    v.Leads (k + i) c := by
  have hmem := List.mem_of_getElem? hk
  have hi : i < e.size := Diagram.lt_size_of_sub? h.diagram
  have hparent := Diagram.enclosing_operand hmem
  have henclosing := Diagram.enclosing_add he hi
  rw [hparent] at henclosing
  refine ⟨?_, ?_, ?_, ?_, ?_⟩
  · rw [h.occurrence]
    exact Nat.add_assoc _ _ _
  · rw [Diagram.sub?_add he hi]
    exact h.diagram
  · rw [h.parents, operand, henclosing]
    cases v.parents with
    | none => rfl
    | some ps => simp
  · have hpos := (Diagram.operandOffset_bounds hmem).1
    omega
  · intro o ho
    rw [henclosing, List.head?_append, List.head?_map] at ho
    rcases Nat.eq_zero_or_pos i with rfl | hpos
    · -- nothing lies between: the operand itself is visited
      cases ho
      exact ⟨k, by rw [h.first rfl]; exact hk, Nat.add_comm _ _⟩
    · obtain ⟨a, ha⟩ := Diagram.exists_head?_enclosing hpos hi
      rw [ha] at ho
      cases ho
      obtain ⟨n, hn, rfl⟩ := h.child a ha
      exact ⟨n, hn, (Nat.add_assoc _ _ _).symm⟩

theorem Leads.of_negation (hv : v.diagram = .negation e)
    (h : (v.operand (v.occurrence + 1) 0 e).Leads i c) : v.Leads (1 + i) c := by
  refine of_operand (by rw [hv]; rfl) ?_ h
  rw [hv]
  exact e.sub?_zero

theorem Leads.of_left {b : Connective} {l r : Diagram} (hv : v.diagram = .binary b l r)
    (h : (v.operand (v.occurrence + 1) 0 l).Leads i c) : v.Leads (1 + i) c := by
  refine of_operand (by rw [hv]; rfl) ?_ h
  rw [hv, Diagram.sub?_left l.size_pos]
  exact l.sub?_zero

theorem Leads.of_right {b : Connective} {l r : Diagram} (hv : v.diagram = .binary b l r)
    (h : (v.operand (v.occurrence + 1 + l.size) 1 r).Leads i c) : v.Leads (l.size + 1 + i) c := by
  have hoccurrence : v.occurrence + 1 + l.size = v.occurrence + (l.size + 1) := by omega
  rw [hoccurrence] at h
  refine of_operand (by rw [hv]; rfl) ?_ h
  rw [hv]
  exact (Diagram.sub?_right b l r 0).trans r.sub?_zero

end Visit

theorem Runs.leads {v : Visit} {log : List Callback} {d : Diagram} {stopped : Bool}
    (h : Runs v log d stopped) : ∀ c ∈ log, ∃ i, v.Leads i c.1 := by
  induction h with
  | replace | keep => exact List.forall_mem_singleton.2 ⟨0, .self _⟩
  | negation hv _ _ _ ih =>
      refine List.forall_mem_cons.2 ⟨⟨0, .self _⟩, ?_⟩
      intro c hc
      obtain ⟨i, hi⟩ := ih c hc
      exact ⟨_, .of_negation hv hi⟩
  | left hv _ _ _ ih =>
      refine List.forall_mem_cons.2 ⟨⟨0, .self _⟩, ?_⟩
      intro c hc
      obtain ⟨i, hi⟩ := ih c hc
      exact ⟨_, .of_left hv hi⟩
  | both hv _ _ _ _ ihl ihr =>
      refine List.forall_mem_cons.2 ⟨⟨0, .self _⟩, List.forall_mem_append.2 ⟨?_, ?_⟩⟩
      · intro c hc
        obtain ⟨i, hi⟩ := ihl c hc
        exact ⟨_, .of_left hv hi⟩
      · intro c hc
        obtain ⟨i, hi⟩ := ihr c hc
        exact ⟨_, .of_right hv hi⟩

section

variable {σ : Type} {f : Visitor σ} {R : σ → σ → Prop} {s s' : σ}

def Visit.untracked (v : Visit) : Visit := { v with parents := none }

/-- States in the relation answer visits to the same place alike, whatever the parents are, and lead to
states in the relation. -/
def Visitor.Blind (f : Visitor σ) (R : σ → σ → Prop) : Prop :=
  ∀ (v v' : Visit) (s s' : σ), v.untracked = v'.untracked → R s s' →
    (f v s).1 = (f v' s').1 ∧ R (f v s).2 (f v' s').2

structure Walk.Alike (R : σ → σ → Prop) (w w' : Walk σ) : Prop where
  diagram : w.diagram = w'.diagram
  stopped : w.stopped = w'.stopped
  state : R w.state w'.state

theorem Visit.walk_alike (hf : f.Blind R) {v v' : Visit} (hv : v.untracked = v'.untracked)
    (s s' : σ) (hs : R s s') : (v.walk f s).Alike R (v'.walk f s') := by
  induction hn : v.diagram.size using Nat.strongRecOn generalizing v v' s s' with
  | ind n ih =>
      obtain ⟨hanswer, hstate⟩ := hf v v' s s' hv hs
      have hdiagram : v'.diagram = v.diagram := (congrArg Visit.diagram hv).symm
      have hoccurrence : v'.occurrence = v.occurrence := (congrArg Visit.occurrence hv).symm
      have hkeep (hk : (f v s).1.action = .keep ∨ (f v s).1.action = .descend ∧
          ((f v s).1.stop = true ∨ v.diagram.operands = [])) :
          (v.walk f s).Alike R (v'.walk f s') := by
        rw [walk_of_keep hk]
        rw [hanswer, ← hdiagram] at hk ⊢
        rw [walk_of_keep hk]
        exact ⟨rfl, rfl, hstate⟩
      cases ha : (f v s).1.action with
      | keep => exact hkeep (.inl ha)
      | replace e =>
          rw [walk_of_replace ha]
          rw [hanswer] at ha ⊢
          rw [walk_of_replace ha]
          exact ⟨rfl, rfl, hstate⟩
      | descend =>
          cases hstop : (f v s).1.stop with
          | true => exact hkeep (.inr ⟨ha, .inl hstop⟩)
          | false =>
              have ha' : (f v' s').1.action = .descend := hanswer ▸ ha
              have hstop' : (f v' s').1.stop = false := hanswer ▸ hstop
              have hoperand (i k : Nat) (e : Diagram) (he : e.size < n) (t t' : σ) (ht : R t t') :
                  ((v.operand i k e).walk f t).Alike R ((v'.operand i k e).walk f t') := by
                have hu : (v.operand i k e).untracked = (v'.operand i k e).untracked := rfl
                exact ih e.size he hu t t' ht rfl
              cases he : v.diagram with
              | null | primary => exact hkeep (.inr ⟨ha, .inr (by rw [he]; rfl)⟩)
              | negation e =>
                  rw [he, Diagram.size] at hn
                  rw [walk_of_negation he ha hstop,
                    walk_of_negation (hdiagram.trans he) ha' hstop', hoccurrence]
                  have hw := hoperand (v.occurrence + 1) 0 e (by omega) _ _ hstate
                  exact ⟨congrArg Diagram.negation hw.diagram, hw.stopped, hw.state⟩
              | binary c l r =>
                  rw [he, Diagram.size] at hn
                  rw [walk_of_binary he ha hstop,
                    walk_of_binary (hdiagram.trans he) ha' hstop', hoccurrence]
                  have hl := hoperand (v.occurrence + 1) 0 l (by omega) _ _ hstate
                  have hr := hoperand (v.occurrence + 1 + l.size) 1 r (by omega) _ _ hl.state
                  dsimp only
                  rw [hl.stopped, hl.diagram]
                  split
                  next => exact ⟨rfl, rfl, hl.state⟩
                  next => exact ⟨congrArg (Diagram.binary c _) hr.diagram, hr.stopped, hr.state⟩

theorem Visitor.Blind.recorded (hf : f.Blind R) :
    f.recorded.Blind fun s s' => R s.1 s'.1 ∧
      s.2.map (fun c => (c.1.untracked, c.2)) = s'.2.map (fun c => (c.1.untracked, c.2)) := by
  rintro v v' s s' hv ⟨hs, hlog⟩
  obtain ⟨hanswer, hstate⟩ := hf v v' s.1 s'.1 hv hs
  refine ⟨hanswer, hstate, ?_⟩
  simp only [Visitor.recorded, List.map_append, List.map_cons, List.map_nil, hlog, hv, hanswer]

namespace Diagram

variable {d : Diagram}

theorem leads_of_mem_callbacks {trackParents : Bool} {c : Callback}
    (hc : c ∈ d.callbacks f trackParents s) :
    ∃ i, Visit.Leads ⟨0, 0, d, if trackParents then some [] else none⟩ i c.1 :=
  (transform_recorded f trackParents d s).2.leads c hc

theorem alike_of_blind (hf : f.Blind R) (hs : R s s') :
    (d.transform f true s).Alike R (d.transform f false s') ∧
      (d.callbacks f true s).map (fun c => (c.1.untracked, c.2)) = d.callbacks f false s' := by
  have hv : Visit.untracked ⟨0, 0, d, some []⟩ = Visit.untracked ⟨0, 0, d, none⟩ := rfl
  refine ⟨Visit.walk_alike hf hv s s' hs, ?_⟩
  have hlog := (Visit.walk_alike hf.recorded hv (s, []) (s', []) ⟨hs, rfl⟩).state.2
  refine hlog.trans ((List.map_congr_left ?_).trans (List.map_id _))
  intro c hc
  have hmem : c ∈ d.callbacks f false s' := hc
  obtain ⟨i, hi⟩ := leads_of_mem_callbacks hmem
  have hparents : c.1.parents = none := hi.parents
  rw [Visit.untracked, ← hparents]
  rfl

/-- What visits say of their places. Where parents are tracked they are the sub-diagrams with smaller
numbers in whose intervals the number is, innermost first, all of them with an operator; and the child
index is the only one at which the offsets of the innermost have the visited number. Where they are not
tracked there are none. A visitor whose answers do not depend on the parents makes the same of a
diagram, by the same callbacks, with and without them. -/
theorem visits_tell_places (d : Diagram) (f : Visitor σ) (s : σ) :
    (∀ c ∈ d.callbacks f true s,
      c.1.parents = some ((d.enclosing c.1.occurrence).map (·.diagram)) ∧
      c.1.parent? = (d.enclosing c.1.occurrence).head?.map (·.diagram) ∧
      (∀ o ∈ d.enclosing c.1.occurrence, o.diagram.operator?.isSome = true) ∧
      (c.1.occurrence = 0 → c.1.childIndex = 0) ∧
      (0 < c.1.occurrence → ∃ o, (d.enclosing c.1.occurrence).head? = some o ∧
        ∀ k, k = c.1.childIndex ↔
          ∃ n, o.diagram.operandOffsets[k]? = some n ∧ c.1.occurrence = o.index + n)) ∧
    (∀ c ∈ d.callbacks f false s, c.1.parents = none ∧ c.1.parent? = none) ∧
    ∀ (R : σ → σ → Prop) (s' : σ), f.Blind R → R s s' →
      (d.transform f true s).Alike R (d.transform f false s') ∧
        (d.callbacks f true s).map (fun c => (c.1.untracked, c.2)) = d.callbacks f false s' := by
  refine ⟨?_, ?_, fun R s' hf hs => alike_of_blind hf hs⟩
  · intro c hc
    obtain ⟨i, hi⟩ := leads_of_mem_callbacks hc
    obtain rfl : c.1.occurrence = i := hi.occurrence.trans (Nat.zero_add i)
    have hparents : c.1.parents = some ((d.enclosing c.1.occurrence).map (·.diagram)) := by
      rw [hi.parents]
      exact congrArg some (List.append_nil _)
    refine ⟨hparents, ?_, fun o => isSome_operator?_of_mem_enclosing, hi.first, ?_⟩
    · rw [Visit.parent?, hparents, ← List.head?_map]
      rfl
    · intro hpos
      obtain ⟨o, ho⟩ := exists_head?_enclosing hpos (lt_size_of_sub? hi.diagram)
      obtain ⟨n, hn, hsum⟩ := hi.child o ho
      refine ⟨o, ho, ?_⟩
      intro k
      constructor
      · rintro rfl
        exact ⟨n, hn, hsum⟩
      · rintro ⟨n', hn', hsum'⟩
        obtain rfl : n' = n := by omega
        have hk := (List.getElem?_eq_some_iff.1 hn').1
        exact (List.getElem?_inj hk (nodup_operandOffsets _)).1 (hn'.trans hn.symm)
  · intro c hc
    obtain ⟨i, hi⟩ := leads_of_mem_callbacks hc
    have hparents : c.1.parents = none := hi.parents
    exact ⟨hparents, by rw [Visit.parent?, hparents]; rfl⟩

theorem visits_tell_places_nested :
    let e : Diagram := .binary .conjunction .null (.negation .null)
    let d : Diagram := .binary .implication (.negation e) .null
    let f : Visitor (List (Option (List Diagram))) := fun v seen =>
      (if seen.length = 3 then ⟨.replace (.negation .null), false⟩ else ⟨.descend, false⟩,
        seen ++ [v.parents])
    (∃ c ∈ d.callbacks f true [], c.1.occurrence = 4 ∧ c.1.parents = some [e, .negation e, d] ∧
      c.1.parent? = some e ∧ c.1.childIndex = 1) ∧
      (∃ c ∈ d.callbacks f false [], c.1.occurrence = 4 ∧ c.1.parents = none) ∧
      f.Blind (fun seen seen' => seen.length = seen'.length) ∧
      (d.transform f true []).state ≠ (d.transform f false []).state ∧
      (d.transform f true []).diagram = (d.transform f false []).diagram := by
  intro e d f
  obtain ⟨htracked, huntracked, hblind⟩ := visits_tell_places d f []
  have hf : f.Blind fun seen seen' => seen.length = seen'.length := by
    intro v v' seen seen' _ hs
    simp [f, hs]
  have henclosing : d.enclosing 4 = [⟨2, e⟩, ⟨1, .negation e⟩, ⟨0, d⟩] := by decide
  have hmem : 4 ∈ (d.callbacks f true []).map (·.1.occurrence) := by decide +kernel
  obtain ⟨c, hc, hfour⟩ := List.mem_map.1 hmem
  obtain ⟨hparents, hparent, _, _, hchild⟩ := htracked c hc
  rw [hfour, henclosing] at hparents hparent hchild
  obtain ⟨_, ⟨⟩, hindex⟩ := hchild (by decide)
  obtain ⟨halike, hsame⟩ := hblind _ [] hf rfl
  have hc' : (c.1.untracked, c.2) ∈ d.callbacks f false [] := by
    rw [← hsame]
    exact List.mem_map.2 ⟨c, hc, rfl⟩
  have hsecond : c.1.childIndex = 1 := ((hindex 1).2 ⟨2, rfl, rfl⟩).symm
  refine ⟨⟨c, hc, hfour, hparents, hparent, hsecond⟩, ?_, hf, ?_, halike.diagram⟩
  · exact ⟨_, hc', hfour, (huntracked _ hc').1⟩
  · decide

end Diagram

end

end SpiderDiagrams
