import Mathlib.Data.List.Induction
import SpiderDiagrams.Proofs.Editing
import SpiderDiagrams.Proofs.Json.RoundTrip
import SpiderDiagrams.Proofs.Problem

namespace SpiderDiagrams

namespace Decoder

variable {α : Type} {d : Decoder α} {a : α}

theorem exists_of_mem_items {js : List Json} {l : List α} (h : items d js = .ok l) (ha : a ∈ l) :
    ∃ j, d j = .ok a := by
  induction js generalizing l with
  | nil =>
      cases h
      cases ha
  | cons j js ih =>
      obtain ⟨b, bs, hb, hbs, rfl⟩ := cons_eq_ok_iff.1 h
      rcases List.mem_cons.1 ha with rfl | ha
      · exact ⟨j, hb⟩
      · exact ih hbs ha

theorem exists_of_mem_list {j : Json} {l : List α} (h : list d j = .ok l) (ha : a ∈ l) :
    ∃ k, d k = .ok a := by
  unfold Decoder.list at h
  split at h
  next => exact exists_of_mem_items h ha
  next => cases h

end Decoder

theorem Diagram.valid_of_decoder {j : Json} {d : Diagram} (h : decoder j = .ok d) : d.Valid := by
  obtain ⟨s, _, hs⟩ := bind_eq_ok h
  exact valid_of_read (mapError_eq_ok (mapError_eq_ok hs))

/-- The move that an application records, by the first of the rules that has its name. -/
def Application.move? (rules : List Rule) (a : Application) : Option Move :=
  (rules.find? (·.name = a.ruleName)).map (⟨·, a.argument, a.kind⟩)

namespace Application

variable {rules : List Rule} {a : Application} {m : Move}

theorem move?_eq_none_iff : a.move? rules = none ↔ ∀ rule ∈ rules, rule.name ≠ a.ruleName := by
  simp [move?]

theorem of_move? (h : a.move? rules = some m) : m.rule ∈ rules ∧ m.application = a := by
  obtain ⟨rule, hrule, rfl⟩ := Option.map_eq_some_iff.1 h
  have hname : rule.name = a.ruleName := by simpa using List.find?_some hrule
  exact ⟨List.mem_of_find?_eq_some hrule, by rw [Move.application, hname]⟩

theorem move?_eq_some_iff : a.move? rules = some m ↔ m.rule ∈ rules ∧ m.application = a := by
  refine ⟨of_move?, ?_⟩
  rintro ⟨hm, rfl⟩
  cases h : m.application.move? rules with
  | none => exact absurd rfl (move?_eq_none_iff.1 h m.rule hm)
  | some n => rw [Move.application_injective (of_move? h).2]

end Application

namespace Trace

variable {rules : List Rule} {t u : Trace} {g h : Goals} {a : Application} {s : Step}
  {l m : List Step} {e : TraceError} {i n : Nat}

def redo? (rules : List Rule) (t : Trace) (a : Application) : Option Trace :=
  (a.move? rules).bind fun m => (t.move m).toOption

def redoAll? (rules : List Rule) (t : Trace) (as : List Application) : Option Trace :=
  as.foldlM (redo? rules) t

/-- The first applications of a trace, made again from its initial goals, give what it records up to
there. -/
def Reproduced (rules : List Rule) (t : Trace) (n : Nat) : Prop :=
  ∃ u, redoAll? rules { initial := t.initial } (t.applications.take n) = some u ∧
    u.states = t.states.take (n + 1) ∧ u.applications = t.applications.take n

/-- One of the rules leads from the goals to those that the step records. -/
def Leads (rules : List Rule) (g : Goals) (s : Step) : Prop :=
  ∃ m : Move, m.rule ∈ rules ∧ m.application = s.application ∧
    m.rule.apply m.argument g = .ok s.goals

/-- The error for a step with a number that does not lead from the goals to those it records. -/
inductive Mismatch (rules : List Rule) (i : Nat) (g : Goals) (s : Step) : TraceError → Prop
  | unknown (h : ∀ rule ∈ rules, rule.name ≠ s.application.ruleName) :
      Mismatch rules i g s (.unknownRule s.application.ruleName)
  | fails {m : Move} {e : RuleError} (hm : m.rule ∈ rules) (ha : m.application = s.application)
      (he : m.rule.apply m.argument g = .error e) : Mismatch rules i g s (.stepFails i e)
  | differs {m : Move} {h : Goals} (hm : m.rule ∈ rules) (ha : m.application = s.application)
      (hh : m.rule.apply m.argument g = .ok h) (hne : h ≠ s.goals) :
      Mismatch rules i g s (.stepDiffers i)

theorem find?_of_move {k : Move} (hk : k.rule ∈ rules) (ha : k.application = a) :
    rules.find? (·.name = a.ruleName) = some k.rule ∧ a.argument = k.argument := by
  obtain ⟨rule, hrule, rfl⟩ := Option.map_eq_some_iff.1 (Application.move?_eq_some_iff.2 ⟨hk, ha⟩)
  exact ⟨hrule, rfl⟩

theorem replay_cons_of_leads (hs : Leads rules g s) :
    replay rules i g (s :: l) = replay rules (i + 1) s.goals l := by
  obtain ⟨k, hk, ha, hg⟩ := hs
  obtain ⟨hf, harg⟩ := find?_of_move hk ha
  simp only [replay, hf, harg, hg, if_true]

theorem replay_cons_of_mismatch (hs : Mismatch rules i g s e) :
    replay rules i g (s :: l) = .error e := by
  cases hs with
  | unknown h =>
      have hf : rules.find? (·.name = s.application.ruleName) = none :=
        Option.map_eq_none_iff.1 (Application.move?_eq_none_iff.2 h)
      simp only [replay, hf]
  | fails hm ha he =>
      obtain ⟨hf, harg⟩ := find?_of_move hm ha
      simp only [replay, hf, harg, he]
  | differs hm ha hh hne =>
      obtain ⟨hf, harg⟩ := find?_of_move hm ha
      simp only [replay, hf, harg, hh, hne, if_false]

theorem leads_or_mismatch (rules : List Rule) (i : Nat) (g : Goals) (s : Step) :
    Leads rules g s ∨ ∃ e, Mismatch rules i g s e := by
  cases hk : s.application.move? rules with
  | none => exact .inr ⟨_, .unknown (Application.move?_eq_none_iff.1 hk)⟩
  | some k =>
      obtain ⟨hm, ha⟩ := Application.of_move? hk
      cases hg : k.rule.apply k.argument g with
      | error e => exact .inr ⟨_, .fails hm ha hg⟩
      | ok h =>
          by_cases hh : h = s.goals
          · exact .inl ⟨k, hm, ha, hh ▸ hg⟩
          · exact .inr ⟨_, .differs hm ha hg hh⟩

theorem replay_singleton_iff : replay rules i g [s] = .ok () ↔ Leads rules g s := by
  refine ⟨fun h => ?_, fun hs => replay_cons_of_leads hs⟩
  rcases leads_or_mismatch rules i g s with hs | ⟨e, he⟩
  · exact hs
  · rw [replay_cons_of_mismatch he] at h
    cases h

theorem redo?_eq_some_iff :
    redo? rules t a = some u ↔ ∃ h, Leads rules t.current ⟨a, h⟩ ∧ u = t.push a h := by
  constructor
  · intro hu
    obtain ⟨k, hk, hto⟩ := Option.bind_eq_some_iff.1 hu
    obtain ⟨hm, rfl⟩ := Application.of_move? hk
    cases hmove : t.move k with
    | error e =>
        rw [hmove] at hto
        cases hto
    | ok v =>
        rw [hmove] at hto
        cases hto
        obtain ⟨h, hh, rfl⟩ := of_move hmove
        exact ⟨h, ⟨k, hm, rfl, hh⟩, rfl⟩
  · rintro ⟨h, ⟨k, hm, rfl, hh⟩, rfl⟩
    rw [redo?, Application.move?_eq_some_iff.2 ⟨hm, rfl⟩, Option.bind_some, move_of_ok hh]
    rfl

theorem redoAll?_concat (rules : List Rule) (t : Trace) (as : List Application) (a : Application) :
    redoAll? rules t (as ++ [a]) = (redoAll? rules t as).bind (redo? rules · a) := by
  simp [redoAll?]

theorem metadata_of_redoAll? {as : List Application} (hu : redoAll? rules t as = some u) :
    u.metadata = t.metadata := by
  induction as using List.reverseRecOn generalizing u with
  | nil =>
      cases hu
      rfl
  | append_singleton as a ih =>
      rw [redoAll?_concat] at hu
      obtain ⟨v, hv, hu⟩ := Option.bind_eq_some_iff.1 hu
      obtain ⟨h, _, rfl⟩ := redo?_eq_some_iff.1 hu
      show v.metadata = t.metadata
      exact ih hv

theorem replay_append_iff :
    replay rules i g (l ++ m) = .ok () ↔
      replay rules i g l = .ok () ∧ replay rules (i + l.length) (after g l) m = .ok () := by
  rw [replay_append]
  cases replay rules i g l with
  | error e =>
      constructor
      · intro h
        cases h
      · rintro ⟨h, _⟩
        cases h
  | ok => exact (and_iff_right rfl).symm

theorem replay_eq_ok_iff :
    replay rules 0 g l = .ok () ↔
      redoAll? rules { initial := g } (l.map (·.application)) = some ⟨g, l.reverse, ∅⟩ := by
  induction l using List.reverseRecOn with
  | nil => exact ⟨fun _ => rfl, fun _ => rfl⟩
  | append_singleton l s ih =>
      have hcurrent : (⟨g, l.reverse, ∅⟩ : Trace).current = after g l := by
        rw [← after_reverse_steps, List.reverse_reverse]
      rw [replay_append_iff, replay_singleton_iff, ih, List.map_append, List.reverse_append]
      constructor
      · rintro ⟨hl, hs⟩
        have hlast := redo?_eq_some_iff.2 ⟨s.goals, hcurrent ▸ hs, rfl⟩
        exact (redoAll?_concat ..).trans (by rw [hl]; exact hlast)
      · intro hu
        obtain ⟨u, hl, hlast⟩ := Option.bind_eq_some_iff.1 ((redoAll?_concat ..).symm.trans hu)
        obtain ⟨h, hs, hpush⟩ := redo?_eq_some_iff.1 hlast
        obtain ⟨initial, steps, metadata⟩ := u
        obtain ⟨a, k⟩ := s
        cases hpush
        exact ⟨hl, hcurrent ▸ hs⟩

theorem replay_eq_error_iff :
    replay rules i g l = .error e ↔
      ∃ l₁ s l₂, l = l₁ ++ s :: l₂ ∧ replay rules i g l₁ = .ok () ∧
        Mismatch rules (i + l₁.length) (after g l₁) s e := by
  constructor
  · intro h
    induction l generalizing i g with
    | nil => cases h
    | cons s l ih =>
        rcases leads_or_mismatch rules i g s with hs | ⟨e', he⟩
        · rw [replay_cons_of_leads hs] at h
          obtain ⟨l₁, s', l₂, rfl, hl, he⟩ := ih h
          refine ⟨s :: l₁, s', l₂, rfl, (replay_cons_of_leads hs).trans hl, ?_⟩
          rw [List.length_cons, Nat.add_comm l₁.length, ← Nat.add_assoc]
          exact he
        · rw [replay_cons_of_mismatch he] at h
          cases h
          exact ⟨[], s, l, rfl, rfl, he⟩
  · rintro ⟨l₁, s, l₂, rfl, hl, he⟩
    rw [replay_append, hl]
    exact replay_cons_of_mismatch he

theorem replay_take_iff {l₁ l₂ : List Step} (hl : replay rules i g l₁ = .ok ())
    (he : Mismatch rules (i + l₁.length) (after g l₁) s e) :
    replay rules i g ((l₁ ++ s :: l₂).take n) = .ok () ↔ n ≤ l₁.length := by
  constructor
  · intro h
    apply Nat.le_of_not_lt
    intro hlt
    obtain ⟨k, rfl⟩ := Nat.exists_eq_add_of_lt hlt
    have htake : (l₁ ++ s :: l₂).take (l₁.length + k + 1) = l₁ ++ s :: l₂.take k := by
      rw [Nat.add_assoc, List.take_length_add_append, List.take_succ_cons]
    rw [htake, replay_eq_error_iff.2 ⟨l₁, s, l₂.take k, rfl, hl, he⟩] at h
    cases h
  · intro hn
    rw [List.take_append_of_le_length hn]
    rw [← List.take_append_drop n l₁] at hl
    exact (replay_append_iff.1 hl).1

theorem eq_of_states (hs : t.states = u.states) (ha : t.applications = u.applications)
    (hm : t.metadata = u.metadata) : t = u := by
  have h := ofStates_states t
  rw [hs, ha, hm, ofStates_states] at h
  exact (Except.ok.inj h).symm

theorem ofStates_eq_ok_iff {gs : List Goals} {as : List Application} {data : SortedMap String String} :
    ofStates gs as data = .ok t ↔
      gs.length = as.length + 1 ∧ t.states = gs ∧ t.applications = as ∧ t.metadata = data := by
  constructor
  · intro h
    cases gs with
    | nil => cases h
    | cons g gs =>
        rw [ofStates] at h
        split at h
        next hlen =>
          cases h
          refine ⟨congrArg Nat.succ hlen, ?_, ?_, rfl⟩
          · simp [states, Function.comp_def, List.map_snd_zip, hlen]
          · simp [applications, Function.comp_def, List.map_fst_zip, hlen]
        next => cases h
  · rintro ⟨_, rfl, rfl, rfl⟩
    exact ofStates_states t

def upTo (t : Trace) (n : Nat) : Trace := ⟨t.initial, (t.steps.reverse.take n).reverse, ∅⟩

theorem states_upTo (t : Trace) (n : Nat) : (t.upTo n).states = t.states.take (n + 1) := by
  simp [states, upTo, List.map_reverse, List.map_take]

theorem applications_upTo (t : Trace) (n : Nat) :
    (t.upTo n).applications = t.applications.take n := by
  simp [applications, upTo, List.map_reverse, List.map_take]

theorem Storable.upTo (ht : t.Storable) (n : Nat) : (t.upTo n).Storable where
  valid g hg := by
    rw [states_upTo] at hg
    exact ht.valid g (List.mem_of_mem_take hg)
  fits a ha := by
    rw [applications_upTo] at ha
    exact ht.fits a (List.mem_of_mem_take ha)

theorem reproduced_iff :
    t.Reproduced rules n ↔ replay rules 0 t.initial (t.steps.reverse.take n) = .ok () := by
  have happlications : t.applications.take n = (t.steps.reverse.take n).map (·.application) := by
    rw [applications, ← List.map_reverse, List.map_take]
  rw [replay_eq_ok_iff, ← happlications]
  constructor
  · rintro ⟨u, hu, hs, ha⟩
    have hm : u.metadata = ∅ := metadata_of_redoAll? hu
    have he : u = t.upTo n := eq_of_states (hs.trans (states_upTo t n).symm)
      (ha.trans (applications_upTo t n).symm) hm
    exact hu.trans (congrArg some he)
  · intro hu
    exact ⟨t.upTo n, hu, states_upTo t n, applications_upTo t n⟩

theorem getElem?_steps_iff :
    t.steps.reverse[i]? = some ⟨a, h⟩ ↔ t.applications[i]? = some a ∧ t.states[i + 1]? = some h := by
  rw [applications, states, List.getElem?_cons_succ, ← List.map_reverse, ← List.map_reverse,
    List.getElem?_map, List.getElem?_map]
  cases t.steps.reverse[i]? with
  | none => simp
  | some s =>
      obtain ⟨b, k⟩ := s
      simp

theorem getElem?_states_of_le (hi : i ≤ t.steps.length) :
    t.states[i]? = some (after t.initial (t.steps.reverse.take i)) := by
  have hlen : (t.upTo i).steps.length = i := by
    simp [upTo, hi]
  have hlast := (t.upTo i).getElem?_states_length
  rw [hlen, states_upTo, List.getElem?_take_of_lt (Nat.lt_succ_self i), ← after_reverse_steps] at hlast
  rwa [upTo, List.reverse_reverse] at hlast

theorem verify_eq_error_iff :
    t.verify rules = .error e ↔
      ∃ i g a h, t.states[i]? = some g ∧ t.applications[i]? = some a ∧ t.states[i + 1]? = some h ∧
        (∀ n, t.Reproduced rules n ↔ n ≤ i) ∧ Mismatch rules i g ⟨a, h⟩ e := by
  rw [verify, replay_eq_error_iff]
  simp only [reproduced_iff, Nat.zero_add]
  constructor
  · rintro ⟨l₁, ⟨a, h⟩, l₂, hl, hok, he⟩
    have hstep : t.steps.reverse[l₁.length]? = some ⟨a, h⟩ := by
      rw [hl, List.getElem?_append_right (Nat.le_refl _), Nat.sub_self]
      rfl
    obtain ⟨ha, hh⟩ := getElem?_steps_iff.1 hstep
    have hstate := getElem?_states_of_le (Nat.le_of_lt (lt_of_getElem?_applications ha))
    rw [hl, List.take_left] at hstate
    refine ⟨l₁.length, _, a, h, hstate, ha, hh, fun n => ?_, he⟩
    rw [hl]
    exact replay_take_iff hok ((Nat.zero_add l₁.length).symm ▸ he)
  · rintro ⟨i, g, a, h, hg, ha, hh, hn, he⟩
    have hi := lt_of_getElem?_applications ha
    rw [getElem?_states_of_le (Nat.le_of_lt hi)] at hg
    cases hg
    have hstep := getElem?_steps_iff.2 ⟨ha, hh⟩
    have hlen : (t.steps.reverse.take i).length = i := by
      simp [Nat.le_of_lt hi]
    refine ⟨t.steps.reverse.take i, ⟨a, h⟩, t.steps.reverse.drop (i + 1), ?_,
      (hn i).2 (Nat.le_refl i), hlen.symm ▸ he⟩
    obtain ⟨hlt, hs⟩ := List.getElem?_eq_some_iff.1 hstep
    rw [← hs, List.getElem_cons_drop, List.take_append_drop]

theorem verify_eq_ok_iff :
    t.verify rules = .ok () ↔
      ∃ u, redoAll? rules { initial := t.initial } t.applications = some u ∧
        u.states = t.states ∧ u.applications = t.applications := by
  have hsteps : t.steps.reverse.take t.steps.length = t.steps.reverse :=
    List.take_of_length_le (by simp)
  have hstates : t.states.take (t.steps.length + 1) = t.states :=
    List.take_of_length_le (by simp)
  have happlications : t.applications.take t.steps.length = t.applications :=
    List.take_of_length_le (by simp)
  rw [verify, ← hsteps, ← reproduced_iff, Reproduced, hstates, happlications]

end Trace

theorem TraceRecord.valid_of_decoder {j : Json} {r : TraceRecord} (h : decoder j = .ok r) :
    ∀ g ∈ r.states, ∀ d ∈ g, d.Valid := by
  refine Decoder.Keeps.record (I := fun r => ∀ g ∈ r.states, ∀ d ∈ g, d.Valid) ?_ (Nat.le_refl _)
    (by simp) h
  intro f hf draft j draft' _ hd hset
  simp only [List.mem_cons, List.not_mem_nil, or_false] at hf
  rcases hf with rfl | rfl | rfl <;> obtain ⟨a, ha, rfl⟩ := map_eq_ok hset
  case inl =>
    intro g hg d hdg
    obtain ⟨_, hj⟩ := Decoder.exists_of_mem_list ha hg
    obtain ⟨_, hk⟩ := Decoder.exists_of_mem_list hj hdg
    exact Diagram.valid_of_decoder hk
  -- the other fields leave the goals as they are
  all_goals exact hd

theorem Decoder.of_decode {α : Type} {d : Decoder α} {value : Json × Bool} {a : α}
    (h : d.decode value = .ok a) : d value.1 = .ok a := by
  obtain ⟨b, hb, h⟩ := bind_eq_ok h
  split at h
  next => cases h
  next =>
    cases h
    exact hb

namespace Trace

variable {t : Trace} {text : String}

theorem load_eq_ok_iff :
    load text = .ok t ↔ ∃ r, TraceRecord.decoder.decode (Json.read text) = .ok r ∧
      r.states.length = r.applications.length + 1 ∧
        t.states = r.states ∧ t.applications = r.applications ∧ t.metadata = r.metadata := by
  constructor
  · intro h
    obtain ⟨r, hr, ht⟩ := bind_eq_ok h
    exact ⟨r, mapError_eq_ok hr, ofStates_eq_ok_iff.1 (mapError_eq_ok ht)⟩
  · rintro ⟨r, hr, ht⟩
    rw [load, hr]
    exact congrArg (Except.mapError _) (ofStates_eq_ok_iff.2 ht)

/-- A text is loaded as a trace if it is a record of one more goals than applications, and as the
trace with these. All diagrams in it are valid. It replays with some rules exactly if its
applications, made again from its initial goals, succeed and give its goals and applications;
otherwise the replay blames the first application that does not. -/
theorem replay_of_load (text : String) :
    (∀ t, load text = .ok t ↔ ∃ r, TraceRecord.decoder.decode (Json.read text) = .ok r ∧
      r.states.length = r.applications.length + 1 ∧
        t.states = r.states ∧ t.applications = r.applications ∧ t.metadata = r.metadata) ∧
    ∀ t, load text = .ok t →
      t.states.length = t.applications.length + 1 ∧ (∀ g ∈ t.states, ∀ d ∈ g, d.Valid) ∧
      ∀ rules,
        (t.verify rules = .ok () ↔
          ∃ u, redoAll? rules { initial := t.initial } t.applications = some u ∧
            u.states = t.states ∧ u.applications = t.applications) ∧
        ∀ e, t.verify rules = .error e ↔
          ∃ i g a h, t.states[i]? = some g ∧ t.applications[i]? = some a ∧
            t.states[i + 1]? = some h ∧ (∀ n, t.Reproduced rules n ↔ n ≤ i) ∧
            Mismatch rules i g ⟨a, h⟩ e := by
  refine ⟨fun t => load_eq_ok_iff, fun t ht => ?_⟩
  obtain ⟨r, hr, hlen, hs, ha, _⟩ := load_eq_ok_iff.1 ht
  refine ⟨by rw [hs, ha, hlen], ?_, fun rules => ⟨verify_eq_ok_iff, fun e => verify_eq_error_iff⟩⟩
  rw [hs]
  exact TraceRecord.valid_of_decoder (Decoder.of_decode hr)

/-- The goals after the second step are not those that it leads to, and the third step fits them. -/
def forged : Trace where
  initial := [.negation (.negation (.binary .conjunction .null (.negation (.negation .null))))]
  steps := [
    ⟨⟨"double_negation_elimination", .single ⟨0, 0⟩, .tactic⟩, [.null]⟩,
    ⟨⟨"commutativity", .single ⟨0, 0⟩, .interactive⟩, [.negation (.negation .null)]⟩,
    ⟨⟨"double_negation_elimination", .single ⟨0, 0⟩, .automatic⟩,
      [.binary .conjunction .null (.negation (.negation .null))]⟩]

theorem forged_storable : forged.Storable where
  valid := by decide
  fits := by
    unfold Argument.Fits Target.Fits
    decide

theorem replay_of_load_forged :
    (load forged.json.pretty = .ok forged ∧ forged.verify Rule.all = .error (.stepDiffers 1) ∧
      ∀ n, forged.Reproduced Rule.all n ↔ n ≤ 1) ∧
    load (forged.upTo 1).json.pretty = .ok (forged.upTo 1) ∧
      (forged.upTo 1).verify Rule.all = .ok () ∧
      ∃ u, redoAll? Rule.all { initial := forged.initial } (forged.upTo 1).applications = some u ∧
        u.states = (forged.upTo 1).states ∧ u.applications = (forged.upTo 1).applications := by
  have hload := (load_of_storable forged_storable).1
  have hverify : forged.verify Rule.all = .error (.stepDiffers 1) := rfl
  have hload' := (load_of_storable (forged_storable.upTo 1)).1
  have hverify' : (forged.upTo 1).verify Rule.all = .ok () := rfl
  refine ⟨⟨hload, hverify, ?_⟩, hload', hverify', ?_⟩
  · obtain ⟨i, _, _, _, _, _, _, hn, he⟩ :=
      ((((replay_of_load _).2 forged hload).2.2 Rule.all).2 _).1 hverify
    cases he
    exact hn
  · exact (((replay_of_load _).2 _ hload').2.2 Rule.all).1.1 hverify'

end Trace

end SpiderDiagrams
