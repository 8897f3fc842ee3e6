import SpiderDiagrams.Trace

namespace SpiderDiagrams.Trace

variable {rules : List Rule} {rule : Rule} {i : Nat} {g : Goals}

@[simp]
theorem current_push (t : Trace) (a : Application) (g : Goals) : (t.push a g).current = g := rfl

@[simp]
theorem states_push (t : Trace) (a : Application) (g : Goals) :
    (t.push a g).states = t.states ++ [g] := by
  simp [states, push]

@[simp]
theorem applications_push (t : Trace) (a : Application) (g : Goals) :
    (t.push a g).applications = t.applications ++ [a] := by
  simp [applications, push]

@[simp]
theorem length_applications (t : Trace) : t.applications.length = t.steps.length := by
  simp [applications]

@[simp]
theorem length_states (t : Trace) : t.states.length = t.steps.length + 1 := by
  simp [states]

theorem getLast?_states (t : Trace) : t.states.getLast? = some t.current := by
  obtain ⟨initial, steps, metadata⟩ := t
  cases steps with
  | nil => rfl
  | cons s steps => simp [states, current, List.getLast?_cons]

theorem current_mem_states (t : Trace) : t.current ∈ t.states :=
  List.mem_of_getLast? (getLast?_states t)

theorem getElem?_states_length (t : Trace) : t.states[t.steps.length]? = some t.current := by
  rw [← getLast?_states, List.getLast?_eq_getElem?, length_states, Nat.add_sub_cancel]

theorem lt_of_getElem?_applications {t : Trace} {a : Application} (h : t.applications[i]? = some a) :
    i < t.steps.length := by
  rw [← length_applications]
  exact (List.getElem?_eq_some_iff.1 h).1

theorem le_of_getElem?_states {t : Trace} (h : t.states[i]? = some g) : i ≤ t.steps.length := by
  have hi := (List.getElem?_eq_some_iff.1 h).1
  rw [length_states] at hi
  omega

theorem getElem?_states_push {t : Trace} (hi : i ≤ t.steps.length) (a : Application) (g : Goals) :
    (t.push a g).states[i]? = t.states[i]? := by
  rw [states_push]
  exact List.getElem?_append_left (by rw [length_states]; omega)

theorem getElem?_states_push_last (t : Trace) (a : Application) (g : Goals) :
    (t.push a g).states[t.steps.length + 1]? = some g := by
  rw [states_push, ← length_states]
  exact List.getElem?_concat_length

theorem getElem?_applications_push {t : Trace} (hi : i < t.steps.length) (a : Application)
    (g : Goals) : (t.push a g).applications[i]? = t.applications[i]? := by
  rw [applications_push]
  exact List.getElem?_append_left (by rwa [length_applications])

theorem getElem?_applications_push_last (t : Trace) (a : Application) (g : Goals) :
    (t.push a g).applications[t.steps.length]? = some a := by
  rw [applications_push, ← length_applications]
  exact List.getElem?_concat_length

/-- The goals after some steps, the earliest first. -/
def after (g : Goals) (steps : List Step) : Goals := steps.foldl (fun _ s => s.goals) g

theorem after_reverse_steps (t : Trace) : after t.initial t.steps.reverse = t.current := by
  obtain ⟨initial, steps, metadata⟩ := t
  cases steps with
  | nil => rfl
  | cons s steps => simp [after, current]

theorem replay_append (rules : List Rule) (i : Nat) (g : Goals) (l m : List Step) :
    replay rules i g (l ++ m) =
      (replay rules i g l).bind fun _ => replay rules (i + l.length) (after g l) m := by
  induction l generalizing i g with
  | nil => rfl
  | cons s l ih =>
      rw [List.cons_append, replay, replay]
      cases rules.find? (·.name = s.application.ruleName) with
      | none => rfl
      | some rule =>
          cases hr : rule.apply s.application.argument g with
          | error e => simp only [hr]; rfl
          | ok h =>
              by_cases hs : h = s.goals
              · simp only [hr, hs, if_true, ih, List.length_cons, Nat.add_assoc, Nat.add_comm 1]
                rfl
              · simp only [hr, hs, if_false]
                rfl

theorem current?_record (t : Trace) : t.record.current? = some t.current := getLast?_states t

theorem record_push (t : Trace) (a : Application) (g : Goals) :
    (t.push a g).record = t.record.push a g := by
  rw [record, states_push, applications_push]
  rfl

theorem applied?_record (t : Trace) (rule : Rule) (argument : Argument) (kind : ApplicationKind) :
    t.record.applied? rule argument kind = some ((t.apply rule argument kind).map record) := by
  rw [TraceRecord.applied?, current?_record, apply, Option.map_some]
  cases rule.apply argument t.current with
  | error e => rfl
  | ok g => exact congrArg (fun r => some (Except.ok r)) (record_push t _ g).symm

theorem undo?_record (t : Trace) : t.record.undo? = t.undo?.map record := by
  obtain ⟨initial, steps, metadata⟩ := t
  cases steps with
  | nil => rfl
  | cons s steps =>
      have hp : (⟨initial, s :: steps, metadata⟩ : Trace).record =
          (⟨initial, steps, metadata⟩ : Trace).record.push s.application s.goals :=
        record_push ⟨initial, steps, metadata⟩ s.application s.goals
      rw [hp, TraceRecord.undo?, TraceRecord.push]
      simp [undo?]

/-- A replay by number finds all goals that it looks for, and comes to the same as one by steps. -/
theorem replay?_eq (rules : List Rule) (gs : List Goals) (g : Goals) (steps : List Step) :
    TraceRecord.replay? rules (gs ++ g :: steps.map (·.goals)) gs.length
        (steps.map (·.application)) = some (replay rules gs.length g steps) := by
  induction steps generalizing gs g with
  | nil => rfl
  | cons s steps ih =>
      have hg : (gs ++ g :: s.goals :: steps.map (·.goals))[gs.length]? = some g := by simp
      have hs : (gs ++ g :: s.goals :: steps.map (·.goals))[gs.length + 1]? = some s.goals := by simp
      rw [List.map_cons, List.map_cons, TraceRecord.replay?, replay, hg, hs]
      cases rules.find? (·.name = s.application.ruleName) with
      | none => rfl
      | some rule =>
          cases ha : rule.apply s.application.argument g with
          | error e => simp [ha]
          | ok h =>
              have hnext := ih (gs ++ [g]) s.goals
              rw [List.append_assoc, List.length_append] at hnext
              by_cases hh : h = s.goals
              · simp only [ha, hh, if_true, Option.bind_eq_bind, Option.bind_some]
                exact hnext
              · simp [ha, hh]

theorem verify?_record (t : Trace) (rules : List Rule) :
    t.record.verify? rules = some (t.verify rules) := by
  have h := replay?_eq rules [] t.initial t.steps.reverse
  rw [List.map_reverse, List.map_reverse] at h
  exact h

theorem verify_push {t : Trace} {a : Application}
    (hf : rules.find? (·.name = a.ruleName) = some rule) (ha : rule.apply a.argument t.current = .ok g)
    (ht : t.verify rules = .ok ()) : (t.push a g).verify rules = .ok () := by
  have hs : (t.push a g).steps.reverse = t.steps.reverse ++ [⟨a, g⟩] := by simp [push]
  have hi : replay rules 0 t.initial t.steps.reverse = .ok () := ht
  show replay rules 0 t.initial (t.push a g).steps.reverse = .ok ()
  rw [hs, replay_append, hi, after_reverse_steps]
  simp [Except.bind, replay, hf, ha]

end SpiderDiagrams.Trace
