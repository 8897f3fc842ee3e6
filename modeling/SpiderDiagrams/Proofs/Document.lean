import SpiderDiagrams.Proofs.CommandLine

namespace SpiderDiagrams

/-- The whole text is one JSON value, in which the decoder finds `a`. -/
def Decoder.IsDocument {α : Type} (d : Decoder α) (text : String) (a : α) : Prop :=
  ∃ j, Json.read text = (j, false) ∧ Denotes d j a

theorem Decoder.Denotes.isDocument {α : Type} {d : Decoder α} {j : Json} {a : α}
    (h : Denotes d j a) : d.IsDocument (j.pretty ++ "\n") a :=
  ⟨j, Json.read_pretty_line h.plain, h⟩

namespace Json

theorem value_of_unexpected {c : Char} (hb : isBlank c = false) (hd : isDigit c = false)
    (hc : c ∉ ['n', 't', 'f', '"', '[', '\x7b', '-']) (n : Nat) (cs : List Char) :
    value (n + 1) (c :: cs) = stop .expectedValue := by
  simp only [List.mem_cons, List.not_mem_nil, or_false, not_or] at hc
  rw [value, skipBlanks_cons hb]
  simp only [hc, hd, if_false, Bool.false_eq_true]

theorem read_of_unexpected {text : String} {bs cs : List Char} {c : Char}
    (ht : text.toList = bs ++ c :: cs) (hbs : ∀ b ∈ bs, isBlank b = true) (hb : isBlank c = false)
    (hd : isDigit c = false) (hc : c ∉ ['n', 't', 'f', '"', '[', '\x7b', '-']) :
    read text = (broken .expectedValue, false) := by
  simp only [read, ht, value_append hbs, value_of_unexpected hb hd hc]
  rfl

theorem not_isDocument_of_broken {text : String} {f : TextFault} (h : read text = (broken f, false))
    {α : Type} (d : Decoder α) (a : α) : ¬d.IsDocument text a := by
  rintro ⟨j, hj, hd⟩
  rw [h] at hj
  obtain rfl := (Prod.mk.inj hj).1
  cases hd.plain

end Json

namespace CommandLine

variable {o : Options} {file : Except FileFault ByteArray} {p : Problem} {g : Goals}
  {rules : List Rule} {rs : List LogRecord} {f : LogFilter}

theorem LogFilter.allows_usual (r : LogRecord) :
    LogFilter.usual.allows r = decide (r.level.verbosity ≤ LogLevel.warn.verbosity) := by
  simp [allows, verbosityFor, usual, LogDirective.concerns]

theorem LogFilter.render_append (rs qs : List LogRecord) :
    f.render (rs ++ qs) = f.render rs ++ f.render qs := by
  rw [render, List.filter_append, List.map_append, String.join_append]
  rfl

theorem LogFilter.render_of_none_allowed (h : ∀ r ∈ rs, f.allows r = false) : f.render rs = "" := by
  have hnil : rs.filter f.allows = [] := by
    apply List.filter_eq_nil_iff.2
    intro r hr
    rw [h r hr]
    exact Bool.false_ne_true
  rw [render, hnil]
  rfl

theorem LogFilter.render_of_all_allowed (h : ∀ r ∈ rs, f.allows r = true) :
    f.render rs = String.join (rs.map LogRecord.line) := by
  rw [render, List.filter_eq_self.2 h]

theorem not_allows_searchRecord (e : SearchEvent) :
    LogFilter.usual.allows (searchRecord e) = false := by
  rw [LogFilter.allows_usual]
  cases e <;> rfl

/-- The warnings of a run: for the prover of the problem, for that of the options, and for the strategy
in effect, as far as these are not known. -/
def warnings (o : Options) (p : Problem) : List LogRecord :=
  proverWarning p.prover ++ proverWarning o.prover ++ strategyWarning (settings o p).strategy

theorem level_of_mem_proverWarning {name : Option String} {r : LogRecord}
    (h : r ∈ proverWarning name) : r.level = .warn := by
  rw [proverWarning] at h
  split at h
  · rw [List.mem_singleton.1 h]
  · cases h

theorem level_of_mem_strategyWarning {name : String} {r : LogRecord}
    (h : r ∈ strategyWarning name) : r.level = .warn := by
  rw [strategyWarning] at h
  split at h
  · rw [List.mem_singleton.1 h]
  · cases h

theorem level_of_mem_warnings {r : LogRecord} (h : r ∈ warnings o p) : r.level = .warn := by
  rcases List.mem_append.1 h with h | h
  · rcases List.mem_append.1 h with h | h
    · exact level_of_mem_proverWarning h
    · exact level_of_mem_proverWarning h
  · exact level_of_mem_strategyWarning h

theorem allows_of_mem_warnings {r : LogRecord} (h : r ∈ warnings o p) :
    LogFilter.usual.allows r = true := by
  rw [LogFilter.allows_usual, level_of_mem_warnings h]
  rfl

theorem render_log (o : Options) (p : Problem) (g : Goals) (rules : List Rule)
    (events : List SearchEvent) :
    LogFilter.usual.render (Job.log o ⟨p, g, .ofConfig (settings o p) rules⟩ events) =
      String.join ((warnings o p).map LogRecord.line) := by
  have hevents : LogFilter.usual.render (events.map searchRecord) = "" := by
    apply LogFilter.render_of_none_allowed
    intro r hr
    obtain ⟨e, _, rfl⟩ := List.mem_map.1 hr
    exact not_allows_searchRecord e
  have hjob (t m n : String) (fs gs : List (String × String)) :
      LogFilter.usual.render [⟨.debug, t, m, fs⟩, ⟨.info, t, n, gs⟩] = "" := by
    apply LogFilter.render_of_none_allowed
    simp [LogFilter.allows_usual, LogLevel.verbosity]
  rw [← LogFilter.render_of_all_allowed fun _ => allows_of_mem_warnings]
  simp only [Job.log, warnings, LogFilter.render_append, hevents, hjob, String.append_empty]
  rfl

/-- Each prover that is named, and the strategy in effect, is one that there is. -/
structure NamesKnown (o : Options) (p : Problem) : Prop where
  problem : ∀ name ∈ p.prover, ∃ kind : ProverKind, kind.name = name
  option : ∀ name ∈ o.prover, ∃ kind : ProverKind, kind.name = name
  strategy : ∃ strategy : Strategy, strategy.name = (settings o p).strategy

theorem find?_name_isSome_iff {α : Type} {all : List α} (hall : ∀ a, a ∈ all) (name : α → String)
    (n : String) : (all.find? (name · = n)).isSome = true ↔ ∃ a, name a = n := by
  simp [List.find?_isSome, hall]

theorem proverWarning_eq_nil_iff {name : Option String} :
    proverWarning name = [] ↔ ∀ n ∈ name, ∃ kind : ProverKind, kind.name = n := by
  have hall : ∀ kind, kind ∈ ProverKind.all := by
    intro kind
    cases kind <;> decide
  cases name with
  | none => simp [proverWarning]
  | some n =>
      simp only [proverWarning, Option.map_some, Option.mem_some_iff, forall_eq', ProverKind.named,
        ← find?_name_isSome_iff hall]
      cases ProverKind.all.find? (·.name = n) <;> simp

theorem strategyWarning_eq_nil_iff {name : String} :
    strategyWarning name = [] ↔ ∃ strategy : Strategy, strategy.name = name := by
  have hall : ∀ strategy, strategy ∈ Strategy.all := by
    intro strategy
    cases strategy <;> decide
  simp only [strategyWarning, Strategy.named, Strategy.ofName?, ← find?_name_isSome_iff hall]
  cases Strategy.all.find? (·.name = name) <;> simp

theorem warnings_eq_nil_iff : warnings o p = [] ↔ NamesKnown o p := by
  rw [warnings, List.append_eq_nil_iff, List.append_eq_nil_iff, proverWarning_eq_nil_iff,
    proverWarning_eq_nil_iff, strategyWarning_eq_nil_iff, and_assoc]
  constructor
  · rintro ⟨hp, ho, hs⟩
    exact ⟨hp, ho, hs⟩
  · rintro ⟨hp, ho, hs⟩
    exact ⟨hp, ho, hs⟩

/-- With a warning in front of it nothing is a document. -/
theorem read_of_warning {r : LogRecord} (hr : r.level = .warn) (lines : String) :
    Json.read (r.line ++ lines) = (.broken .expectedValue, false) := by
  have hline : ∃ cs, (r.line ++ lines).toList = [' '] ++ 'W' :: cs := by
    have hlabel : (toString LogLevel.warn.label).toList = [' ', 'W', 'A', 'R', 'N'] := rfl
    simp only [LogRecord.line, hr, String.toList_append, hlabel]
    exact ⟨_, rfl⟩
  obtain ⟨cs, hcs⟩ := hline
  exact Json.read_of_unexpected hcs (List.forall_mem_singleton.2 rfl) rfl rfl (by decide)

theorem Accepted.stdout_json (h : Accepted file p g rules) (hj : o.json = true) :
    (CommandLine.run o (.ofText none) file).stdout =
      String.join ((warnings o p).map LogRecord.line) ++
        ((marked p ((Prover.ofConfig (settings o p) rules).prove g)).json.pretty ++ "\n") := by
  obtain ⟨text, hd, hl⟩ := h.load o
  rw [run_of_load _ hd hl, ← render_log o p g rules]
  simp only [hj, if_true]
  rfl

theorem Accepted.read_of_not_namesKnown (h : Accepted file p g rules) (hj : o.json = true)
    (hk : ¬NamesKnown o p) :
    Json.read (CommandLine.run o (.ofText none) file).stdout = (.broken .expectedValue, false) := by
  cases hw : warnings o p with
  | nil => exact absurd (warnings_eq_nil_iff.1 hw) hk
  | cons w ws =>
      have hlevel : w.level = .warn := level_of_mem_warnings (hw ▸ List.mem_cons_self)
      rw [h.stdout_json hj, hw, List.map_cons, String.join_cons, String.append_assoc]
      exact read_of_warning hlevel _

theorem exists_accepted_of_exitCode
    (h : (run o f file).exitCode = 0 ∨ (run o f file).exitCode = 1) :
    ∃ p g rules, Accepted file p g rules := by
  apply exists_accepted
  intro hr
  rw [exitCode_of_rejected o f hr] at h
  omega

/-- If JSON is wanted, nothing is said about the log and something was searched for, then what is
printed is the warnings, one on each line, and behind them a document that holds the result of the
search. It is this document alone if all names are known, and else it cannot be read as JSON. Only
words are read back: the file is shorter than two to the 63 bytes, as all that is held in memory is,
and the successors have not been more than a word can count. -/
theorem run_prints_document (o : Options) (file : Except FileFault ByteArray) (hj : o.json = true)
    (hexit : (run o (.ofText none) file).exitCode = 0 ∨
      (run o (.ofText none) file).exitCode = 1) :
    let out := (run o (.ofText none) file).stdout
    (∃ p g rules, Accepted file p g rules) ∧
    ∀ p g rules, Accepted file p g rules →
      let r := (Prover.ofConfig (settings o p) rules).prove g
      ∃ document,
        out = String.join ((warnings o p).map LogRecord.line) ++ document ∧
        ((∀ bytes, file = .ok bytes → bytes.size < 0x8000000000000000) →
          r.successorsGenerated < Json.wordLimit →
          SearchResult.decoder.IsDocument document (marked p r)) ∧
        (NamesKnown o p → out = document) ∧
        (¬NamesKnown o p → Json.read out = (.broken .expectedValue, false)) := by
  refine ⟨exists_accepted_of_exitCode hexit, ?_⟩
  intro p g rules h r
  refine ⟨(marked p r).json.pretty ++ "\n", h.stdout_json hj, ?_, ?_, ?_⟩
  · intro hsize hn
    exact (SearchResult.denotes (storable_marked (h.storable hsize hn) p)).isDocument
  · intro hk
    rw [h.stdout_json hj, warnings_eq_nil_iff.2 hk]
    exact String.empty_append
  · exact h.read_of_not_namesKnown hj

def misguided : Problem where
  id := "misguided"
  goals := [Diagram.null.text, (Diagram.negation (.negation .null)).text]
  strategy := some "shortest"
  rules := some [Rule.doubleNegationElimination.name]

def misguidedFile : Except FileFault ByteArray := .ok misguided.json.pretty.toUTF8

theorem accepted_misguided : Accepted misguidedFile misguided
    [.null, .negation (.negation .null)] [.doubleNegationElimination] where
  problem := by
    refine ⟨misguided.json.pretty, holds_toUTF8 _, ?_⟩
    have hfits : misguided.Fits := by
      intro n hn
      cases hn
    rw [Problem.load, (Problem.denotes hfits).restores.2]
    rfl
  goals := .cons (Diagram.read_text trivial) (.cons (Diagram.read_text trivial) .nil)
  rules := .inl rfl

def misguidedSearch (o : Options) : SearchResult :=
  (Prover.ofConfig (settings o misguided) [.doubleNegationElimination]).prove
    [.null, .negation (.negation .null)]

theorem misguidedSearch_eq (o : Options) :
    misguidedSearch o = (Prover.ofConfig (settings o misguided)
      [.doubleNegationElimination]).searchListed ⟨[.negation (.negation .null)], [], ∅⟩ .never :=
  Prover.search_eq_searchListed _ _ _

theorem namesKnown_overriding : NamesKnown overriding misguided where
  problem := by
    intro name h
    cases h
  option := by
    rintro _ ⟨⟩
    exact ⟨.bestFirst, rfl⟩
  strategy := ⟨.connectiveCount, rfl⟩

theorem run_prints_document_overridden :
    (run overriding (.ofText none) misguidedFile).exitCode = 0 ∧
      SearchResult.decoder.IsDocument (run overriding (.ofText none) misguidedFile).stdout
        (marked misguided (misguidedSearch overriding)) := by
  have hstatus : (misguidedSearch overriding).status = .proved := by
    rw [misguidedSearch_eq]
    decide +kernel
  have hsuccessors : (misguidedSearch overriding).successorsGenerated < Json.wordLimit := by
    rw [misguidedSearch_eq]
    decide +kernel
  have hsize : misguided.json.pretty.utf8ByteSize < 0x8000000000000000 := by
    rw [Json.pretty, String.utf8ByteSize_ofList]
    decide +kernel
  have hexit : (run overriding (.ofText none) misguidedFile).exitCode = 0 :=
    (accepted_misguided.exitCode _ _).trans (if_pos hstatus)
  obtain ⟨document, _, hdocument, hout, _⟩ :=
    (run_prints_document overriding _ rfl (.inl hexit)).2 _ _ _ accepted_misguided
  refine ⟨hexit, ?_⟩
  rw [hout namesKnown_overriding]
  refine hdocument ?_ hsuccessors
  intro bytes hb
  rw [← Except.ok.inj hb]
  exact hsize

def asking : Options where
  problem := "misguided.json"
  json := true

/-- The strategy of the problem is looked for, and the warning that there is none spoils the
document. -/
theorem run_prints_no_document :
    (run asking (.ofText none) misguidedFile).exitCode = 0 ∧
      ∀ r, ¬SearchResult.decoder.IsDocument (run asking (.ofText none) misguidedFile).stdout r := by
  have hstatus : (misguidedSearch asking).status = .proved := by
    rw [misguidedSearch_eq]
    decide +kernel
  have hunknown : ¬NamesKnown asking misguided := by
    rintro ⟨_, _, strategy, hs⟩
    cases strategy <;> exact absurd hs (by decide)
  refine ⟨(accepted_misguided.exitCode _ _).trans (if_pos hstatus), ?_⟩
  exact Json.not_isDocument_of_broken (accepted_misguided.read_of_not_namesKnown rfl hunknown) _

end CommandLine

end SpiderDiagrams
