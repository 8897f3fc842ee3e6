import Mathlib.Data.List.Induction
import SpiderDiagrams.Proofs.Candidates
import SpiderDiagrams.Proofs.Diagram.Acceptance
import SpiderDiagrams.Proofs.Trace

namespace SpiderDiagrams

structure Move where
  rule : Rule
  argument : Argument
  kind : ApplicationKind

def Move.application (m : Move) : Application := ⟨m.rule.name, m.argument, m.kind⟩

theorem Move.application_injective : Function.Injective Move.application := by
  rintro ⟨rule, a, k⟩ ⟨rule', a', k'⟩ h
  obtain ⟨hn, ha, hk⟩ := Application.mk.inj h
  cases Rule.name_injective hn
  cases ha
  cases hk
  rfl

inductive Edit where
  | apply (m : Move)
  | undo
  | annotate (key value : String)

/-- The goals to which moves lead one after the other, if each of them succeeds. -/
def Goals.perform (g : Goals) (ms : List Move) : Except RuleError Goals :=
  ms.foldlM (fun g m => m.rule.apply m.argument g) g

/-- The moves that some edits leave: one that succeeds after those left before it is added, an undo
takes away the latest. -/
inductive Kept (g : Goals) : List Edit → List Move → Prop
  | nil : Kept g [] []
  | applied {es : List Edit} {ms : List Move} {m : Move} {h k : Goals} (hk : Kept g es ms)
      (hh : g.perform ms = .ok h) (hm : m.rule.apply m.argument h = .ok k) :
      Kept g (es ++ [.apply m]) (ms ++ [m])
  | failed {es : List Edit} {ms : List Move} {m : Move} {h : Goals} {e : RuleError}
      (hk : Kept g es ms) (hh : g.perform ms = .ok h)
      (hm : m.rule.apply m.argument h = .error e) : Kept g (es ++ [.apply m]) ms
  | undone {es : List Edit} {ms : List Move} {m : Move} (hk : Kept g es (ms ++ [m])) :
      Kept g (es ++ [.undo]) ms
  | idle {es : List Edit} (hk : Kept g es []) : Kept g (es ++ [.undo]) []
  | annotated {es : List Edit} {ms : List Move} (hk : Kept g es ms) (key value : String) :
      Kept g (es ++ [.annotate key value]) ms

namespace TraceRecord

/-- An application that fails and an undo without an application change nothing. -/
def edit? (r : TraceRecord) : Edit → Option TraceRecord
  | .apply m => (r.applied? m.rule m.argument m.kind).map (·.toOption.getD r)
  | .undo => some (r.undo?.getD r)
  | .annotate key value => some (r.annotate key value)

def editAll? (r : TraceRecord) (es : List Edit) : Option TraceRecord := es.foldlM edit? r

/-- The two lists are those of some moves from the given goals: each application is followed by the
goals to which the moves up to it lead, and none is without. -/
structure Holds (g : Goals) (ms : List Move) (r : TraceRecord) : Prop where
  balanced : r.states.length = r.applications.length + 1
  first : r.states.head? = some g
  applications : r.applications = ms.map Move.application
  states : ∀ i, i ≤ ms.length → ∃ h, g.perform (ms.take i) = .ok h ∧ r.states[i]? = some h
  verified : r.verify? Rule.all = some (.ok ())

theorem Holds.of_lists {g : Goals} {ms : List Move} {q r : TraceRecord} (h : q.Holds g ms)
    (hs : q.states = r.states) (ha : q.applications = r.applications) : r.Holds g ms := by
  obtain ⟨states, applications, metadata⟩ := r
  cases hs
  cases ha
  exact ⟨h.balanced, h.first, h.applications, h.states, h.verified⟩

end TraceRecord

namespace Trace

variable {t u : Trace} {g : Goals} {m : Move} {ms : List Move} {es : List Edit}

def move (t : Trace) (m : Move) : Except RuleError Trace := t.apply m.rule m.argument m.kind

def edit (t : Trace) : Edit → Trace
  | .apply m => (t.move m).toOption.getD t
  | .undo => t.undo?.getD t
  | .annotate key value => t.annotate key value

def editAll (t : Trace) (es : List Edit) : Trace := es.foldl edit t

def moveAll (t : Trace) (ms : List Move) : Except RuleError Trace := ms.foldlM move t

theorem editAll_concat (t : Trace) (es : List Edit) (e : Edit) :
    t.editAll (es ++ [e]) = (t.editAll es).edit e := by
  simp [editAll]

theorem moveAll_concat (t : Trace) (ms : List Move) (m : Move) :
    t.moveAll (ms ++ [m]) = t.moveAll ms >>= (·.move m) := by
  simp [moveAll]

theorem perform_concat (g : Goals) (ms : List Move) (m : Move) :
    g.perform (ms ++ [m]) = g.perform ms >>= (m.rule.apply m.argument ·) := by
  simp [Goals.perform]

theorem move_of_ok {h : Goals} (hm : m.rule.apply m.argument t.current = .ok h) :
    t.move m = .ok (t.push m.application h) := by
  rw [move, apply, hm]
  rfl

theorem move_of_error {e : RuleError} (hm : m.rule.apply m.argument t.current = .error e) :
    t.move m = .error e := by
  rw [move, apply, hm]
  rfl

theorem of_move (h : t.move m = .ok u) :
    ∃ k, m.rule.apply m.argument t.current = .ok k ∧ u = t.push m.application k := by
  cases hm : m.rule.apply m.argument t.current with
  | error e =>
      rw [move_of_error hm] at h
      cases h
  | ok k =>
      rw [move_of_ok hm] at h
      exact ⟨k, rfl, (Except.ok.inj h).symm⟩

/-- Moves that succeed: a trace records them and where they lead, and replays. -/
structure Records (g : Goals) (ms : List Move) (t : Trace) : Prop where
  initial : t.initial = g
  applications : t.applications = ms.map Move.application
  current : g.perform ms = .ok t.current
  verified : t.verify Rule.all = .ok ()

theorem records_of_moveAll (h : moveAll { initial := g } ms = .ok u) : Records g ms u := by
  induction ms using List.reverseRecOn generalizing u with
  | nil =>
      cases h
      exact ⟨rfl, rfl, rfl, rfl⟩
  | append_singleton ms m ih =>
      rw [moveAll_concat] at h
      obtain ⟨t, ht, hm⟩ := bind_eq_ok h
      obtain ⟨k, hk, rfl⟩ := of_move hm
      have hr := ih ht
      refine ⟨hr.initial, ?_, ?_, ?_⟩
      · rw [applications_push, hr.applications, List.map_append]
        rfl
      · rw [perform_concat, hr.current]
        exact hk
      · exact verify_push (Rule.ofName?_name m.rule) hk hr.verified

/-- The same goals and applications, with other notes perhaps. -/
def Alike (t u : Trace) : Prop := t.initial = u.initial ∧ t.steps = u.steps

theorem Alike.current (h : Alike t u) : t.current = u.current := by
  rw [Trace.current, Trace.current, h.1, h.2]

theorem Alike.push (h : Alike t u) (a : Application) (k : Goals) :
    Alike (t.push a k) (u.push a k) :=
  ⟨h.1, congrArg (Step.mk a k :: ·) h.2⟩

theorem edit_apply_of_ok {k : Goals} (hm : m.rule.apply m.argument t.current = .ok k) :
    t.edit (.apply m) = t.push m.application k := by
  rw [edit, move_of_ok hm]
  rfl

theorem edit_apply_of_error {e : RuleError} (hm : m.rule.apply m.argument t.current = .error e) :
    t.edit (.apply m) = t := by
  rw [edit, move_of_error hm]
  rfl

theorem Alike.undo_push (h : Alike t (u.push m.application g)) : Alike (t.edit .undo) u := by
  obtain ⟨initial, steps, metadata⟩ := t
  obtain ⟨hi, hs⟩ := h
  cases hs
  exact ⟨hi, rfl⟩

theorem edit_undo_of_nil (h : t.steps = []) : t.edit .undo = t := by
  rw [edit, undo?, h]
  rfl

theorem alike_of_kept (h : Kept g es ms) :
    ∃ u, moveAll { initial := g } ms = .ok u ∧ Alike (editAll { initial := g } es) u := by
  induction h with
  | nil => exact ⟨_, rfl, rfl, rfl⟩
  | @applied es ms m h k hk hh hm ih =>
      obtain ⟨u, hu, ha⟩ := ih
      have hcurrent : h = u.current := Except.ok.inj (hh.symm.trans (records_of_moveAll hu).current)
      rw [hcurrent] at hm
      rw [moveAll_concat, hu, editAll_concat, edit_apply_of_ok (ha.current ▸ hm)]
      exact ⟨_, move_of_ok hm, ha.push _ _⟩
  | @failed es ms m h e hk hh hm ih =>
      obtain ⟨u, hu, ha⟩ := ih
      have hcurrent : h = u.current := Except.ok.inj (hh.symm.trans (records_of_moveAll hu).current)
      rw [hcurrent, ← ha.current] at hm
      rw [editAll_concat, edit_apply_of_error hm]
      exact ⟨u, hu, ha⟩
  | @undone es ms m hk ih =>
      obtain ⟨v, hv, ha⟩ := ih
      rw [moveAll_concat] at hv
      obtain ⟨u, hu, hm⟩ := bind_eq_ok hv
      obtain ⟨k, _, rfl⟩ := of_move hm
      rw [editAll_concat]
      exact ⟨u, hu, ha.undo_push⟩
  | @idle es hk ih =>
      obtain ⟨u, hu, ha⟩ := ih
      cases hu
      rw [editAll_concat, edit_undo_of_nil ha.2]
      exact ⟨_, rfl, ha⟩
  | @annotated es ms hk key value ih =>
      obtain ⟨u, hu, ha⟩ := ih
      rw [editAll_concat]
      exact ⟨u, hu, ha⟩

theorem exists_kept (g : Goals) (es : List Edit) : ∃ ms, Kept g es ms := by
  induction es using List.reverseRecOn with
  | nil => exact ⟨[], .nil⟩
  | append_singleton es e ih =>
      obtain ⟨ms, hms⟩ := ih
      obtain ⟨u, hu, _⟩ := alike_of_kept hms
      have hcurrent := (records_of_moveAll hu).current
      cases e with
      | apply m =>
          cases hm : m.rule.apply m.argument u.current with
          | error e => exact ⟨ms, .failed hms hcurrent hm⟩
          | ok k => exact ⟨ms ++ [m], .applied hms hcurrent hm⟩
      | undo =>
          rcases List.eq_nil_or_concat ms with rfl | ⟨ms, m, rfl⟩
          · exact ⟨[], .idle hms⟩
          · exact ⟨ms, .undone (List.concat_eq_append ▸ hms)⟩
      | annotate key value => exact ⟨ms, .annotated hms key value⟩

theorem applications_of_kept (h : Kept g es ms) :
    (editAll { initial := g } es).applications = ms.map Move.application := by
  obtain ⟨u, hu, ha⟩ := alike_of_kept h
  rw [← (records_of_moveAll hu).applications, applications, applications, ha.2]

theorem edit?_record (t : Trace) (e : Edit) : t.record.edit? e = some (t.edit e).record := by
  cases e with
  | apply m =>
      rw [TraceRecord.edit?, applied?_record, edit, move]
      cases t.apply m.rule m.argument m.kind <;> rfl
  | undo =>
      rw [TraceRecord.edit?, undo?_record, edit]
      cases t.undo? <;> rfl
  | annotate => rfl

theorem editAll?_record (t : Trace) (es : List Edit) :
    t.record.editAll? es = some (t.editAll es).record := by
  induction es generalizing t with
  | nil => rfl
  | cons e es ih =>
      rw [TraceRecord.editAll?, List.foldlM_cons, edit?_record]
      exact ih (t.edit e)

theorem getElem?_states_of_moveAll (h : moveAll { initial := g } ms = .ok u) {i : Nat}
    (hi : i ≤ ms.length) : ∃ k, g.perform (ms.take i) = .ok k ∧ u.states[i]? = some k := by
  induction ms using List.reverseRecOn generalizing u with
  | nil =>
      cases h
      obtain rfl := Nat.le_zero.1 hi
      exact ⟨g, rfl, rfl⟩
  | append_singleton ms m ih =>
      have hr := records_of_moveAll h
      have hlength : u.steps.length = (ms ++ [m]).length := by
        rw [← length_applications, hr.applications, List.length_map]
      rcases Nat.lt_or_eq_of_le hi with hlt | rfl
      · rw [moveAll_concat] at h
        obtain ⟨t, ht, hm⟩ := bind_eq_ok h
        obtain ⟨k, _, rfl⟩ := of_move hm
        have hle : i ≤ ms.length := by simpa [Nat.lt_succ_iff] using hlt
        obtain ⟨k', hk, hs⟩ := ih ht hle
        rw [List.take_append_of_le_length hle, getElem?_states_push (le_of_getElem?_states hs)]
        exact ⟨k', hk, hs⟩
      · rw [List.take_length, ← hlength, getElem?_states_length]
        exact ⟨u.current, hr.current, rfl⟩

theorem holds_of_moveAll (h : moveAll { initial := g } ms = .ok u) : u.record.Holds g ms where
  balanced := (length_states u).trans (congrArg (· + 1) (length_applications u).symm)
  first := congrArg some (records_of_moveAll h).initial
  applications := (records_of_moveAll h).applications
  states _ := getElem?_states_of_moveAll h
  verified := by rw [verify?_record, (records_of_moveAll h).verified]

theorem editAll_of_moveAll (h : t.moveAll ms = .ok u) : t.editAll (ms.map .apply) = u := by
  induction ms generalizing t with
  | nil =>
      cases h
      rfl
  | cons m ms ih =>
      rw [moveAll, List.foldlM_cons] at h
      obtain ⟨v, hv, hu⟩ := bind_eq_ok h
      have he : t.edit (.apply m) = v := by
        rw [edit, hv]
        rfl
      rw [List.map_cons, editAll, List.foldl_cons, he]
      exact ih hu

/-- Edits of a new trace leave a definite list of moves, and always find goals to be made on. The two
lists that they leave hold these moves and where each of them leads, begin with the same goals and
replay; they are those of the edited trace, and of a trace on which only these moves were made. -/
theorem editAll_keeps_moves (g : Goals) (es : List Edit) :
    ∃ ms r, (∀ ns, Kept g es ns ↔ ns = ms) ∧
      (TraceRecord.new g).editAll? es = some r ∧ r.Holds g ms ∧
      (∃ q, (TraceRecord.new g).editAll? (ms.map .apply) = some q ∧ q.states = r.states ∧
        q.applications = r.applications) ∧
      let t := editAll { initial := g } es
      t.record = r ∧ t.applications = ms.map Move.application ∧ g.perform ms = .ok t.current ∧
        t.states.length = t.applications.length + 1 ∧ t.states.head? = some g ∧
        t.verify Rule.all = .ok () ∧
        ∃ u, moveAll { initial := g } ms = .ok u ∧ u.states = t.states ∧
          u.applications = t.applications := by
  obtain ⟨ms, hms⟩ := exists_kept g es
  obtain ⟨u, hu, ha⟩ := alike_of_kept hms
  have hr := records_of_moveAll hu
  have hstates : u.states = (editAll { initial := g } es).states := by
    rw [states, states, ha.1, ha.2]
  have happlications : u.applications = (editAll { initial := g } es).applications := by
    rw [applications_of_kept hms, hr.applications]
  have hholds := (holds_of_moveAll hu).of_lists (r := (editAll { initial := g } es).record)
    hstates happlications
  have hverify := hholds.verified
  rw [verify?_record] at hverify
  refine ⟨ms, _, ?_, editAll?_record { initial := g } es, hholds, ?_, rfl, hholds.applications, ?_,
    hholds.balanced, hholds.first, Option.some.inj hverify, u, hu, hstates, happlications⟩
  · intro ns
    refine ⟨?_, fun he => he ▸ hms⟩
    intro hns
    apply List.map_injective_iff.2 Move.application_injective
    rw [← applications_of_kept hns, ← applications_of_kept hms]
  · refine ⟨u.record, ?_, hstates, happlications⟩
    rw [← editAll_of_moveAll hu]
    exact editAll?_record { initial := g } (ms.map .apply)
  · rw [hr.current, ha.current]

def fourfold : Goals := [.negation (.negation (.negation (.negation .null)))]

def elimination : Move := ⟨.doubleNegationElimination, .single ⟨0, 0⟩, .interactive⟩

def swap : Move := ⟨.commutativity, .single ⟨0, 0⟩, .tactic⟩

/-- There is nothing to undo at first, nothing can be swapped, and the second elimination is undone. -/
def hesitant : List Edit :=
  [.undo, .apply elimination, .apply swap, .apply elimination, .annotate "author" "hand", .undo]

theorem kept_hesitant : Kept fourfold hesitant [elimination] := by
  have hone : fourfold.perform [elimination] = .ok [.negation (.negation .null)] := rfl
  have hfirst : Kept fourfold [.undo, .apply elimination] [elimination] :=
    .applied (.idle .nil) rfl hone
  have hsecond := Kept.applied (hfirst.failed (m := swap) hone rfl) (m := elimination) hone rfl
  exact .undone (.annotated hsecond "author" "hand")

theorem editAll_keeps_moves_hesitant :
    ∃ r, (TraceRecord.new fourfold).editAll? hesitant = some r ∧ r.Holds fourfold [elimination] ∧
      r.applications = [elimination.application] ∧
      r.states = [fourfold, [.negation (.negation .null)]] ∧
      (editAll { initial := fourfold } hesitant).record = r := by
  obtain ⟨ms, r, hkept, hr, hholds, _, ht, _⟩ := editAll_keeps_moves fourfold hesitant
  obtain rfl := (hkept _).1 kept_hesitant
  refine ⟨r, hr, hholds, hholds.applications, ?_, ht⟩
  rw [← ht]
  rfl

end Trace

end SpiderDiagrams
