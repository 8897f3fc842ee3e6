import SpiderDiagrams.Proofs.Candidates
import SpiderDiagrams.Proofs.Json.RoundTrip
import SpiderDiagrams.Proofs.Search.Continuation

/-!
How large goals become. A diagram is no larger than the text that it is read from, and an
application of a rule adds at most one subgoal and at most two to the size of a subgoal. The indices
by which rules are applied stay below these sizes, so they are words unless a trace begins with
goals, or has a number of steps, close to the bound of words.
-/

namespace SpiderDiagrams

theorem Layout.length_le {ts : List Token} {cs : List Char} (h : Layout ts cs) :
    ts.length ≤ cs.length := by
  induction h with
  | nil hb => exact Nat.zero_le _
  | @cons bs cs t ts hb h ih =>
      obtain ⟨c, us, he, _⟩ := t.exists_spelling
      simp only [he, List.length_append, List.length_cons]
      omega

namespace Diagram

theorem size_of_compound {op : Operator} {ds : List Diagram} {d : Diagram}
    (h : compound op ds = .ok d) : d.size = ds.foldr (·.size + ·) 1 := by
  unfold compound at h
  split at h
  next => cases h; rfl
  next => cases h; rfl
  next => cases h

theorem size_le_of_written {r : Raw} {ts : List Token} (hr : r.Written ts) {d : Diagram}
    (h : r.build = .ok d) : d.size ≤ ts.length := by
  induction hr generalizing d with
  | null => cases h; decide
  | primary =>
      obtain ⟨p, _, rfl⟩ := map_eq_ok (mapError_eq_ok h)
      simp [size]
  | @unary operator r ts _ ih =>
      obtain ⟨op, _, h⟩ := bind_eq_ok h
      obtain ⟨e, he, h⟩ := bind_eq_ok h
      have hsize := ih he
      rw [size_of_compound (mapError_eq_ok h)]
      simp only [List.foldr_cons, List.foldr_nil, List.length_append, List.length_cons,
        List.length_nil]
      omega
  | @binary operator l r ts us _ _ ihl ihr =>
      obtain ⟨op, _, h⟩ := bind_eq_ok h
      obtain ⟨a, ha, h⟩ := bind_eq_ok h
      obtain ⟨b, hb, h⟩ := bind_eq_ok h
      have hl := ihl ha
      have hr := ihr hb
      rw [size_of_compound (mapError_eq_ok h)]
      simp only [List.foldr_cons, List.foldr_nil, List.length_append, List.length_cons,
        List.length_nil]
      omega

theorem size_le_of_read {s : String} {d : Diagram} (h : read s = .ok d) : d.size ≤ s.length := by
  obtain ⟨r, ⟨ts, hw, _, hl⟩, hb⟩ := read_eq_ok_iff.1 h
  have hsize := size_le_of_written hw hb
  have hlen := hl.length_le
  rw [String.length_toList] at hlen
  exact Nat.le_trans hsize hlen

theorem size_le_of_replaceAt? {d d' e e' : Diagram} {i : Nat} (hs : d.sub? i = some e)
    (hr : d.replaceAt? i e' = some d') (he : e'.size ≤ e.size + 2) : d'.size ≤ d.size + 2 := by
  apply replaceAt?_induction (P := fun _ d d' => d'.size ≤ d.size + 2) hs hr he
  · intro i d d' ih
    simp only [size]
    omega
  · intro i c l l' r _ ih
    simp only [size]
    omega
  · intro i c l r r' ih
    simp only [size]
    omega

end Diagram

namespace Goals

variable {g h : Goals} {n : Nat} {t : Target} {e e' : Diagram}

/-- There are at most so many subgoals, and none is larger than that. -/
def Within (n : Nat) (g : Goals) : Prop := g.length ≤ n ∧ ∀ d ∈ g, d.size ≤ n

theorem Within.mono {m : Nat} (hg : g.Within n) (hn : n ≤ m) : g.Within m :=
  ⟨Nat.le_trans hg.1 hn, fun d hd => Nat.le_trans (hg.2 d hd) hn⟩

theorem Within.of_dischargeTrivial (hg : g.Within n) : g.dischargeTrivial.Within n :=
  ⟨Nat.le_trans (List.length_filter_le _ _) hg.1, fun d hd => hg.2 d (List.mem_filter.1 hd).1⟩

theorem Within.of_replaceSubgoal? {i : Nat} {ds : List Diagram} (hg : g.Within n)
    (hlen : ds.length ≤ 2) (hsize : ∀ d ∈ ds, d.size ≤ n + 2)
    (hr : g.replaceSubgoal? i ds = some h) : h.Within (n + 2) := by
  rw [eq_of_replaceSubgoal? hr]
  constructor
  · have hf : (dischargeTrivial ds).length ≤ ds.length := List.length_filter_le _ _
    have hg' := hg.1
    simp only [List.length_append, List.length_take, List.length_drop]
    omega
  · intro d hd
    rw [List.mem_append, List.mem_append] at hd
    rcases hd with (hd | hd) | hd
    · exact Nat.le_add_right_of_le (hg.2 d (List.mem_of_mem_take hd))
    · exact hsize d (List.mem_filter.1 hd).1
    · exact Nat.le_add_right_of_le (hg.2 d (List.mem_of_mem_drop hd))

theorem Within.of_rewritten (hg : g.Within n) (he : e'.size ≤ e.size + 2)
    (hr : g.Rewritten h t e e') : h.Within (n + 2) := by
  obtain ⟨d, d', hd, hs, hd', hh⟩ := hr
  refine hg.of_replaceSubgoal? (by simp) ?_ hh
  rw [List.forall_mem_singleton]
  have hle := hg.2 d (List.mem_of_getElem? hd)
  exact Nat.le_trans (Diagram.size_le_of_replaceAt? hs hd' he) (Nat.add_le_add_right hle 2)

theorem Within.of_apply {rule : Rule} {a : Argument} (hg : g.Within n)
    (ha : rule.apply a g = .ok h) : h.Within (n + 2) := by
  cases Rule.applies_of_apply ha with
  | split _ hd hr =>
      have hle := hg.2 _ (List.mem_of_getElem? hd)
      rw [Diagram.size] at hle
      refine hg.of_replaceSubgoal? (by simp) ?_ hr
      exact List.forall_mem_cons.2 ⟨by omega, List.forall_mem_singleton.2 (by omega)⟩
  | eliminate _ he hr =>
      apply hg.of_rewritten _ hr
      obtain ⟨l, r, rfl, rfl | rfl⟩ := Rule.of_keepOperand he <;> simp only [Diagram.size] <;> omega
  | splitSpiders he hr =>
      apply hg.of_rewritten _ hr
      obtain ⟨p, _, _, _, rfl, _, _, _, _, rfl⟩ := Rule.of_splitHabitat he
      simp only [Diagram.size]
      omega
  | replace hf he hr =>
      apply hg.of_rewritten _ hr
      cases Rule.replaces_of_replacement? hf he <;> simp only [Diagram.size] <;> omega

theorem Within.fits {rule : Rule} {a : Argument} (hg : g.Within n) (hn : n ≤ Json.wordLimit)
    (ha : rule.apply a g = .ok h) : a.Fits := by
  obtain ⟨i, d, k, e, detail, hd, hs, hadm, rfl⟩ :=
    Rule.atPlace_of_applies (Rule.applies_of_apply ha)
  have htarget {j : Nat} (hj : j < d.size) : Target.Fits ⟨i, j⟩ :=
    ⟨Nat.lt_of_lt_of_le (List.getElem?_eq_some_iff.1 hd).1 (Nat.le_trans hg.1 hn),
      Nat.lt_of_lt_of_le hj (Nat.le_trans (hg.2 d (List.mem_of_getElem? hd)) hn)⟩
  have hk := htarget (Diagram.lt_size_of_sub? hs)
  have hle := Diagram.add_size_le hs
  cases hadm with
  -- the operand that is kept has its number among those of the conjunction
  | left k l r =>
      have hr := r.size_pos
      rw [Diagram.size] at hle
      exact List.forall_mem_cons.2 ⟨hk, List.forall_mem_singleton.2 (htarget (by omega))⟩
  | right k l r =>
      have hr := r.size_pos
      rw [Diagram.size] at hle
      exact List.forall_mem_cons.2 ⟨hk, List.forall_mem_singleton.2 (htarget (by omega))⟩
  | split | habitat | replace => exact List.forall_mem_singleton.2 hk

end Goals

theorem Prover.Continues.storable {p : Prover} {seed t : Trace} {n : Nat}
    (h : p.Continues seed t) (hseed : seed.Storable) (hn : seed.current.Within n)
    (ht : n + 2 * t.steps.length ≤ Json.wordLimit) :
    t.Storable ∧ t.current.Within (n + 2 * t.steps.length) := by
  induction h with
  | seed => exact ⟨hseed, hn.mono (Nat.le_add_right _ _)⟩
  | @push t rule a g _ hr ha hk ih =>
      have hlen : (t.push ⟨rule.name, a, .automatic⟩ g).steps.length = t.steps.length + 1 := rfl
      rw [hlen] at ht ⊢
      obtain ⟨hs, hw⟩ := ih (by omega)
      have hvalid : ∀ d ∈ g, d.Valid := Goals.valid_of_apply
        (hs.valid t.current (List.mem_of_getLast? t.getLast?_states)) ha
      refine ⟨⟨?_, ?_⟩, hw.of_apply ha⟩
      · rw [Trace.states_push]
        exact List.forall_mem_append.2 ⟨hs.valid, List.forall_mem_singleton.2 hvalid⟩
      · rw [Trace.applications_push]
        exact List.forall_mem_append.2 ⟨hs.fits,
          List.forall_mem_singleton.2 (hw.fits (by omega) ha)⟩

end SpiderDiagrams
