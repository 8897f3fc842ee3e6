import Mathlib.Data.String.Basic
import SpiderDiagrams.CommandLine.Run
import SpiderDiagrams.Proofs.Problem
import SpiderDiagrams.Proofs.Search.Bounds

namespace SpiderDiagrams.CommandLine

variable {o : Options} {filter : LogFilter} {file : Except FileFault ByteArray} {text : String}
  {p : Problem} {g : Goals} {rules : List Rule} {t : Job}

def Holds (file : Except FileFault ByteArray) (text : String) : Prop :=
  ∃ bytes, file = .ok bytes ∧ String.fromUTF8? bytes = some text

theorem decodeFile_eq_ok_iff : decodeFile file = .ok text ↔ Holds file text := by
  constructor
  · intro h
    obtain ⟨bytes, hb, h⟩ := bind_eq_ok h
    split at h
    next ht =>
      cases h
      exact ⟨bytes, hb, ht⟩
    next => cases h
  · rintro ⟨bytes, rfl, ht⟩
    simp only [decodeFile, bind, Except.bind, ht]
    rfl

theorem Holds.unique {text' : String} (h : Holds file text) (h' : Holds file text') :
    text = text' :=
  Except.ok.inj ((decodeFile_eq_ok_iff.2 h).symm.trans (decodeFile_eq_ok_iff.2 h'))

theorem holds_toUTF8 (text : String) : Holds (.ok text.toUTF8) text :=
  ⟨_, rfl, dif_pos text.isValidUTF8⟩

/-- Something is wrong with the file: it cannot be read, it holds no problem, or the problem has a
goal or a rule that is none. -/
inductive Rejected (file : Except FileFault ByteArray) : Prop
  | unreadable (h : ∀ text, ¬Holds file text)
  | noProblem {text : String} (h : Holds file text) (hp : ∀ p, Problem.load text ≠ .ok p)
  | noGoal {text goal : String} {p : Problem} (h : Holds file text) (hp : Problem.load text = .ok p)
      (hg : goal ∈ p.goals) (hd : ∀ d, Diagram.read goal ≠ .ok d)
  | noRule {text name : String} {names : List String} {p : Problem} (h : Holds file text)
      (hp : Problem.load text = .ok p) (hr : p.rules = some names) (hn : name ∈ names)
      (hx : ∀ rule : Rule, rule.name ≠ name)

/-- The problem in the file, the goals that are read from it, and the rules that it names or all. -/
structure Accepted (file : Except FileFault ByteArray) (p : Problem) (g : Goals)
    (rules : List Rule) : Prop where
  problem : ∃ text, Holds file text ∧ Problem.load text = .ok p
  goals : List.Forall₂ (fun text d => Diagram.read text = .ok d) p.goals g
  rules : p.rules = some (rules.map Rule.name) ∨ p.rules = none ∧ rules = Rule.all

/-- What the options say, what the problem says where they say nothing, and the usual settings
where neither does. -/
def settings (o : Options) (p : Problem) : Config where
  kind := ((o.prover <|> p.prover).map ProverKind.namedOrUsual).getD .breadthFirst
  strategy := (o.strategy <|> p.strategy).getD Strategy.none.name
  maxDepth := (o.maxDepth <|> p.maxDepth).getD 20

theorem effectiveConfig_eq (o : Options) (p : Problem) : effectiveConfig o p = settings o p := by
  have hget {α : Type} (a b : Option α) (c : α) : a.getD (b.getD c) = (a <|> b).getD c := by
    cases a <;> rfl
  simp only [effectiveConfig, settings, Problem.config, hget]
  cases o.prover <;> rfl

theorem Accepted.load (h : Accepted file p g rules) (o : Options) :
    ∃ text, decodeFile file = .ok text ∧
      Job.load o text = .ok ⟨p, g, .ofConfig (settings o p) rules⟩ := by
  obtain ⟨text, ht, hp⟩ := h.problem
  refine ⟨text, decodeFile_eq_ok_iff.2 ht, ?_⟩
  have hg : p.toGoals = .ok g := Problem.readGoals_eq_ok_iff.2 h.goals
  have hr : p.toRules = .ok rules := Problem.toRules_eq_ok_iff.2 h.rules
  rw [Job.load, hp]
  simp only [bind, Except.bind, hg, hr, effectiveConfig_eq]
  rfl

theorem accepted_of_load (hd : decodeFile file = .ok text) (hl : Job.load o text = .ok t) :
    ∃ rules, Accepted file t.problem t.goals rules := by
  obtain ⟨p, hp, hl⟩ := bind_eq_ok hl
  obtain ⟨g, hg, hl⟩ := bind_eq_ok hl
  obtain ⟨rules, hr, hl⟩ := bind_eq_ok hl
  cases hl
  exact ⟨rules, ⟨text, decodeFile_eq_ok_iff.1 hd, hp⟩, Problem.readGoals_eq_ok_iff.1 hg,
    Problem.toRules_eq_ok_iff.1 hr⟩

theorem Accepted.not_rejected (h : Accepted file p g rules) : ¬Rejected file := by
  obtain ⟨text, ht, hp⟩ := h.problem
  rintro (hnone | ⟨ht', hnone⟩ | ⟨ht', hp', hg, hnone⟩ | ⟨ht', hp', hr, hn, hnone⟩)
  · exact hnone text ht
  · cases ht.unique ht'
    exact hnone p hp
  · cases ht.unique ht'
    cases hp.symm.trans hp'
    obtain ⟨d, hd⟩ := exists_forall₂_iff.1 ⟨g, h.goals⟩ _ hg
    exact hnone d hd
  · cases ht.unique ht'
    cases hp.symm.trans hp'
    rcases h.rules with hs | ⟨hs, _⟩
    · cases hr.symm.trans hs
      obtain ⟨rule, _, rfl⟩ := List.mem_map.1 hn
      exact hnone rule rfl
    · cases hr.symm.trans hs

theorem exists_accepted (h : ¬Rejected file) : ∃ p g rules, Accepted file p g rules := by
  obtain ⟨text, ht⟩ : ∃ text, Holds file text := by
    by_contra hn
    exact h (.unreadable (not_exists.1 hn))
  obtain ⟨p, hp⟩ : ∃ p, Problem.load text = .ok p := by
    by_contra hn
    exact h (.noProblem ht (not_exists.1 hn))
  obtain ⟨g, hg⟩ : ∃ g, List.Forall₂ (fun text d => Diagram.read text = .ok d) p.goals g := by
    apply exists_forall₂_iff.2
    intro goal hg
    by_contra hn
    exact h (.noGoal ht hp hg (not_exists.1 hn))
  obtain ⟨rules, hr⟩ : ∃ rules, p.toRules = .ok rules := by
    apply Problem.exists_toRules
    intro names hr name hn
    by_contra hx
    exact h (.noRule ht hp hr hn (not_exists.1 hx))
  exact ⟨p, g, rules, ⟨text, ht, hp⟩, hg, Problem.toRules_eq_ok_iff.1 hr⟩

theorem run_of_load (filter : LogFilter) (hd : decodeFile file = .ok text)
    (hl : Job.load o text = .ok t) :
    run o filter file =
      ⟨if t.search.1.isProved then 0 else 1,
        filter.render (t.log o t.search.2) ++
          (if o.json then t.search.1.json.pretty ++ "\n" else resultText t.problem.id t.search.1),
        ""⟩ := by
  rw [run, hd]
  simp only [Except.mapError, bind, Except.bind, hl]

theorem exitCode_of_rejected (o : Options) (filter : LogFilter) (h : Rejected file) :
    (run o filter file).exitCode = 2 := by
  rw [run]
  cases hd : decodeFile file with
  | error f => rfl
  | ok text =>
      simp only [Except.mapError, bind, Except.bind]
      cases hl : Job.load o text with
      | error e => rfl
      | ok t =>
          obtain ⟨rules, ha⟩ := accepted_of_load hd hl
          exact absurd h ha.not_rejected

def marked (p : Problem) (r : SearchResult) : SearchResult :=
  { r with proof := r.proof.map (·.annotate "problem" p.id) }

theorem Accepted.run (h : Accepted file p g rules) (o : Options) (filter : LogFilter) :
    ∃ records : List LogRecord,
      let r := (Prover.ofConfig (settings o p) rules).prove g
      CommandLine.run o filter file =
        ⟨if r.isProved then 0 else 1,
          filter.render records ++ (if o.json then (marked p r).json.pretty ++ "\n"
            else resultText p.id (marked p r)), ""⟩ := by
  obtain ⟨text, hd, hl⟩ := h.load o
  exact ⟨_, run_of_load filter hd hl⟩

theorem Accepted.exitCode (h : Accepted file p g rules) (o : Options) (filter : LogFilter) :
    (CommandLine.run o filter file).exitCode =
      if ((Prover.ofConfig (settings o p) rules).prove g).status = .proved then 0 else 1 := by
  obtain ⟨records, hr⟩ := h.run o filter
  rw [hr]
  simp only [SearchResult.isProved, decide_eq_true_eq]

theorem length_le_size {bytes : ByteArray} (h : String.fromUTF8? bytes = some text) :
    text.length ≤ bytes.size := by
  have hb : text.utf8ByteSize = bytes.size := by
    rw [String.fromUTF8?] at h
    split at h
    next => cases h; rfl
    next => cases h
  rw [← hb, ← text.ofList_toList, String.utf8ByteSize_ofList, String.length_ofList]
  induction text.toList with
  | nil => exact Nat.zero_le _
  | cons c cs ih =>
      have hc := c.utf8Size_pos
      simp only [List.length_cons, String.utf8Len_cons]
      omega

theorem Accepted.valid (h : Accepted file p g rules) : ∀ d ∈ g, d.Valid := by
  intro d hd
  obtain ⟨text, _, ht⟩ := exists_mem_of_forall₂ h.goals hd
  exact Diagram.valid_of_read ht

theorem Accepted.within (h : Accepted file p g rules) {bytes : ByteArray}
    (hf : file = .ok bytes) : g.Within bytes.size := by
  obtain ⟨text, ⟨bytes', hf', ht⟩, hp⟩ := h.problem
  cases hf.symm.trans hf'
  have hsize := length_le_size ht
  obtain ⟨hlen, hall⟩ := Problem.within_of_load hp
  rw [h.goals.length_eq] at hlen
  refine ⟨Nat.le_trans hlen hsize, ?_⟩
  intro d hd
  obtain ⟨goal, hg, hr⟩ := exists_mem_of_forall₂ h.goals hd
  exact Nat.le_trans (Diagram.size_le_of_read hr) (Nat.le_trans (hall goal hg) hsize)

theorem Accepted.storable (h : Accepted file p g rules)
    (hsize : ∀ bytes, file = .ok bytes → bytes.size < 0x8000000000000000)
    (hn : ((Prover.ofConfig (settings o p) rules).prove g).successorsGenerated < Json.wordLimit) :
    ((Prover.ofConfig (settings o p) rules).prove g).Storable := by
  obtain ⟨_, ⟨bytes, hf, _⟩, _⟩ := h.problem
  have hb := hsize bytes hf
  refine Prover.storable_search ⟨?_, nofun⟩ (h.within hf).of_dischargeTrivial ?_ ?_ hn
  · intro g' hg d hd
    rw [List.mem_singleton.1 hg] at hd
    exact h.valid d (List.mem_filter.1 hd).1
  · -- no proof is longer than the number of states that may be explored
    show bytes.size + 2 * (0 + 10000) < 0x10000000000000000
    omega
  · show 100000 < 0x10000000000000000
    decide

theorem storable_marked {r : SearchResult} (h : r.Storable) (p : Problem) :
    (marked p r).Storable := by
  refine ⟨?_, h.statesExplored, h.successorsGenerated, h.depthReached, h.peakFrontier⟩
  intro t ht
  obtain ⟨u, hu, rfl⟩ := Option.map_eq_some_iff.1 ht
  exact ⟨(h.proof u hu).valid, (h.proof u hu).fits⟩

theorem Accepted.decode (h : Accepted file p g rules) (filter : LogFilter) (hj : o.json = true)
    (hs : ((Prover.ofConfig (settings o p) rules).prove g).Storable) :
    ∃ records document,
      (CommandLine.run o filter file).stdout = filter.render records ++ document ∧
      SearchResult.decoder.decode (Json.read document) =
        .ok (marked p ((Prover.ofConfig (settings o p) rules).prove g)) := by
  obtain ⟨records, hr⟩ := h.run o filter
  refine ⟨records, _, ?_, (SearchResult.denotes (storable_marked hs p)).decode_line⟩
  rw [hr]
  simp only [hj, if_true]

def wrapped : Problem where
  id := "wrapped"
  goals := [Diagram.null.text, (Diagram.negation (.negation .null)).text]
  rules := some [Rule.doubleNegationElimination.name]
  maxDepth := some 1

def overriding : Options where
  problem := "wrapped.json"
  prover := "best_first"
  strategy := "connective_count"
  json := true

end SpiderDiagrams.CommandLine
