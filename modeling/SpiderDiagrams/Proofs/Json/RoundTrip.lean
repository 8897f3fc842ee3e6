import SpiderDiagrams.Problem
import SpiderDiagrams.Proofs.Diagram.RoundTrip
import SpiderDiagrams.Proofs.Json.Text

namespace SpiderDiagrams

namespace Decoder

variable {α β σ : Type}

/-- A value that is read as it is written, and that the decoder takes for `a`. -/
structure Denotes (d : Decoder α) (j : Json) (a : α) : Prop where
  plain : j.Plain
  decodes : d j = .ok a

variable {d : Decoder α} {j : Json} {a : α}

theorem denotes_string (s : String) : Denotes string (.string s) s := ⟨.string s, rfl⟩

theorem denotes_bool (b : Bool) : Denotes bool (.bool b) b := ⟨.bool b, rfl⟩

theorem denotes_nat {n : Nat} (h : n < Json.wordLimit) : Denotes nat (.nat n) n := ⟨.nat h, rfl⟩

theorem denotes_none : Denotes d.optional .null none := ⟨.null, rfl⟩

theorem Denotes.mapped (h : Denotes d j a) (f : α → β) :
    Denotes (fun j => (d j).map f) j (f a) :=
  ⟨h.plain, by rw [h.decodes]; rfl⟩

theorem Denotes.some (h : Denotes d j a) (hj : j ≠ .null) : Denotes d.optional j (some a) := by
  refine ⟨h.plain, ?_⟩
  rw [optional, h.decodes]
  · rfl
  · exact hj

theorem Denotes.checked (h : Denotes d j a) {check : α → Except String β} {b : β}
    (hb : check a = .ok b) : Denotes (d.checked check) j b := by
  refine ⟨h.plain, ?_⟩
  rw [Decoder.checked, h.decodes]
  exact congrArg (Except.mapError _) hb

theorem denotes_list {f : α → Json} {l : List α} (h : ∀ a ∈ l, Denotes d (f a) a) :
    Denotes (list d) (.list (l.map f)) l := by
  refine ⟨.list (List.forall_mem_map.2 fun a ha => (h a ha).plain), ?_⟩
  rw [list]
  induction l with
  | nil => rfl
  | cons a l ih =>
      rw [List.forall_mem_cons] at h
      rw [List.map_cons, items, h.1.decodes, ih h.2]
      rfl

theorem denotes_map {f : α → Json} {m : SortedMap String α}
    (h : ∀ e ∈ m.entries, Denotes d (f e.2) e.2) :
    Denotes (map d) (.record (m.entries.map fun (k, a) => (k, f a))) m := by
  have he (l : List (String × α)) (hl : ∀ e ∈ l, Denotes d (f e.2) e.2) :
      entries d (Json.keyed (l.map fun (k, a) => (k, f a))) = .ok l := by
    induction l with
    | nil => rfl
    | cons e l ih =>
        rw [List.forall_mem_cons] at hl
        rw [List.map_cons, Json.keyed, List.map_cons, entries, hl.1.decodes, ← Json.keyed, ih hl.2]
        rfl
  refine ⟨.record (List.forall_mem_map.2 fun e he => (h e he).plain), ?_⟩
  have hm : map d (.record (m.entries.map fun (k, a) => (k, f a))) =
      (entries d (Json.keyed (m.entries.map fun (k, a) => (k, f a)))).map .ofList := rfl
  rw [hm, he m.entries h, Except.map, SortedMap.ofList_entries]

/-- Members that give fields their values, in the order of the fields, and so lead from one draft to
another. A field that is not required may be left out. -/
inductive Gives : List (Field σ) → List (String × Json) → σ → σ → Prop
  | nil {s : σ} : Gives [] [] s s
  | cons {α : Type} {d : Decoder α} {j : Json} {a : α} {presence : Presence} {name : String}
      {set : σ → α → σ} {fields : List (Field σ)} {members : List (String × Json)} {s s' : σ}
      (h : Denotes d j a) (hs : Gives fields members (set s a) s') :
      Gives (.of presence name d set :: fields) ((name, j) :: members) s s'
  | skip {field : Field σ} {fields : List (Field σ)} {members : List (String × Json)} {s s' : σ}
      (h : field.presence ≠ .required) (hs : Gives fields members s s') :
      Gives (field :: fields) members s s'

variable {fields : List (Field σ)} {members : List (String × Json)} {s s' : σ}

def memberOf (name : String) (j : Option Json) : List (String × Json) := (j.map (name, ·)).toList

theorem Gives.given {name : String} {set : σ → Option α → σ} {x : Option α} {f : α → Json}
    (h : ∀ a ∈ x, Denotes d (f a) a) (hf : ∀ a, f a ≠ .null) (hd : set s none = s)
    (hs : Gives fields members (set s x) s') :
    Gives (.defaulted name d.optional set :: fields) (memberOf name (x.map f) ++ members) s s' := by
  cases x with
  | none =>
      rw [hd] at hs
      exact .skip (fun hp => by cases hp) hs
  | some a => exact .cons ((h a rfl).some (hf a)) hs

theorem Gives.plain (h : Gives fields members s s') : ∀ m ∈ members, m.2.Plain := by
  induction h with
  | nil => simp
  | cons h _ ih => exact List.forall_mem_cons.2 ⟨h.plain, ih⟩
  | skip _ _ ih => exact ih

theorem find?_name (hn : (fields.map (·.name)).Nodup) {field : Field σ} (h : field ∈ fields) :
    fields.find? (·.name = field.name) = some field := by
  induction fields with
  | nil => cases h
  | cons f fields ih =>
      rw [List.map_cons, List.nodup_cons] at hn
      rcases List.mem_cons.1 h with rfl | h
      · exact List.find?_cons_of_pos (by simp)
      · have hne : f.name ≠ field.name := by
          intro he
          exact hn.1 (he ▸ List.mem_map_of_mem h)
        rw [List.find?_cons_of_neg (by simp [hne]), ih hn.2 h]

theorem Gives.setMembers {all : List (Field σ)} (h : Gives fields members s s')
    (hall : ∀ f ∈ fields, all.find? (·.name = f.name) = some f)
    (hn : (fields.map (·.name)).Nodup) (seen : List String) (hs : ∀ f ∈ fields, f.name ∉ seen) :
    ∃ seen', Decoder.setMembers all seen s (Json.keyed members) = .ok (seen', s') ∧
      seen ⊆ seen' ∧ ∀ f ∈ fields, f.presence = .required → f.name ∈ seen' := by
  induction h generalizing seen with
  | nil => exact ⟨seen, rfl, List.Subset.refl seen, by simp⟩
  | @cons _ d j a presence name set fields members s s' h _ ih =>
      rw [List.forall_mem_cons] at hall hs
      rw [List.map_cons, List.nodup_cons] at hn
      have hfresh : ∀ f ∈ fields, f.name ∉ name :: seen := by
        intro f hf hm
        rcases List.mem_cons.1 hm with he | hm
        · exact hn.1 (List.mem_map.2 ⟨f, hf, he⟩)
        · exact hs.2 f hf hm
      have hfound : all.find? (·.name = name) = some (.of presence name d set) := hall.1
      have hnew : name ∉ seen := hs.1
      have hvalue : (Field.of presence name d set).set s j = .ok (set s a) :=
        congrArg (Except.map (set s)) h.decodes
      obtain ⟨seen', hset, hsub, hreq⟩ := ih hall.2 hn.2 (name :: seen) hfresh
      have hname : name ∈ seen' := hsub List.mem_cons_self
      refine ⟨seen', ?_, fun x hx => hsub (List.mem_cons_of_mem _ hx), ?_⟩
      · rw [Json.keyed, List.map_cons, Decoder.setMembers]
        simp only [key, bind, Except.bind, hfound, if_neg hnew, hvalue]
        exact hset
      · exact List.forall_mem_cons.2 ⟨fun _ => hname, hreq⟩
  | skip h _ ih =>
      rw [List.forall_mem_cons] at hall hs
      rw [List.map_cons, List.nodup_cons] at hn
      obtain ⟨seen', hset, hsub, hreq⟩ := ih hall.2 hn.2 seen hs.2
      exact ⟨seen', hset, hsub, List.forall_mem_cons.2 ⟨fun hr => absurd hr h, hreq⟩⟩

theorem Gives.denotes (h : Gives fields members s s') (hn : (fields.map (·.name)).Nodup)
    (what : String) : Denotes (record what fields s) (.record members) s' := by
  refine ⟨.record h.plain, ?_⟩
  obtain ⟨seen, hset, -, hreq⟩ := h.setMembers (fun f hf => find?_name hn hf) hn [] (by simp)
  have hmissing : fields.find? (fun f => f.presence = .required ∧ f.name ∉ seen) = none := by
    rw [List.find?_eq_none]
    intro f hf hm
    have hm := of_decide_eq_true hm
    exact hm.2 (hreq f hf hm.1)
  rw [Json.keyed] at hset
  rw [Json.record, record, hset]
  simp only [bind, Except.bind, hmissing]
  rfl

theorem denotes_oneOf {variants : List (String × Variant α)} {name expected : String}
    (hv : variants.lookup name = some (.payload expected d)) (h : Denotes d j a) :
    Denotes (oneOf variants) (.record [(name, j)]) a := by
  refine ⟨.record (by simp [h.plain]), ?_⟩
  rw [Json.record, List.map_cons, oneOf]
  simp only [key, bind, Except.bind, variantNamed, hv, h.decodes]
  rfl

/-- The decoder finds `a` in both texts of the value. -/
def Restores (d : Decoder α) (j : Json) (a : α) : Prop :=
  d.decode (Json.read j.compact) = .ok a ∧ d.decode (Json.read j.pretty) = .ok a

theorem Denotes.decode_plain (h : Denotes d j a) : d.decode (j, false) = .ok a := by
  rw [decode, h.decodes]
  rfl

theorem Denotes.restores (h : Denotes d j a) : d.Restores j a := by
  rw [Restores, Json.read_compact h.plain, Json.read_pretty h.plain]
  exact ⟨h.decode_plain, h.decode_plain⟩

theorem Denotes.decode_line (h : Denotes d j a) :
    d.decode (Json.read (j.pretty ++ "\n")) = .ok a := by
  rw [Json.read_pretty_line h.plain]
  exact h.decode_plain

end Decoder

open Decoder (Denotes denotes_string denotes_bool denotes_nat denotes_list memberOf)

theorem denotes_strings (l : List String) : Denotes (.list .string) (.strings l) l :=
  denotes_list fun s _ => denotes_string s

theorem NameSet.denotes (s : NameSet) : Denotes decoder (json s) s := by
  have h := (denotes_strings s.toList).mapped SortedSet.ofList
  rw [SortedSet.ofList_toList] at h
  exact h

theorem Zone.denotes (z : Zone) : Denotes decoder z.json z :=
  Decoder.Gives.denotes
    (.cons (NameSet.denotes z.inside) (.cons (NameSet.denotes z.outside) .nil)) (by decide) _

theorem Region.denotes (r : Region) : Denotes decoder (json r) r := by
  have h := (denotes_list (f := Zone.json) fun z (_ : z ∈ r.toList) => z.denotes).mapped
    SortedSet.ofList
  rw [SortedSet.ofList_toList] at h
  exact h

theorem Diagram.denotes {d : Diagram} (h : d.Valid) : Denotes decoder d.json d :=
  (denotes_string d.text).checked (by rw [Diagram.read_text h]; rfl)

theorem Goals.denotes {g : Goals} (h : ∀ d ∈ g, d.Valid) : Denotes decoder g.json g :=
  denotes_list fun d hd => Diagram.denotes (h d hd)

def Target.Fits (t : Target) : Prop := t.subgoal < Json.wordLimit ∧ t.occurrence < Json.wordLimit

theorem Target.denotes {t : Target} (h : t.Fits) : Denotes decoder t.json t :=
  Decoder.Gives.denotes (.cons (denotes_nat h.1) (.cons (denotes_nat h.2) .nil)) (by decide) _

namespace Argument

def Fits (a : Argument) : Prop := ∀ t ∈ a.targets, t.Fits

theorem denotes {a : Argument} (h : a.Fits) : Denotes decoder a.json a := by
  cases a with
  | single t =>
      have ht := Target.denotes (h t List.mem_cons_self)
      exact Decoder.denotes_oneOf rfl (ht.mapped single)
  | multiple ts =>
      have hts := denotes_list (l := ts) fun t ht => Target.denotes (h t ht)
      exact Decoder.denotes_oneOf rfl (hts.mapped multiple)
  | spiderRegion t spider region =>
      have ht := Target.denotes (h t List.mem_cons_self)
      have hp : Denotes regionPartsDecoder _ ⟨t, spider, region⟩ := Decoder.Gives.denotes
        (.cons ht (.cons (denotes_string spider) (.cons region.denotes .nil))) (by decide) _
      exact Decoder.denotes_oneOf rfl (hp.mapped fun p => spiderRegion p.target p.spider p.region)

end Argument

theorem ApplicationKind.denotes (k : ApplicationKind) : Denotes decoder k.json k :=
  ⟨.string k.label, by cases k <;> rfl⟩

theorem Application.denotes {a : Application} (h : a.argument.Fits) : Denotes decoder a.json a :=
  Decoder.Gives.denotes (.cons (denotes_string a.ruleName)
    (.cons (Argument.denotes h) (.cons a.kind.denotes .nil))) (by decide) _

namespace Trace

/-- The diagrams of a trace are valid and the indices in it are words. -/
structure Storable (t : Trace) : Prop where
  valid : ∀ g ∈ t.states, ∀ d ∈ g, d.Valid
  fits : ∀ a ∈ t.applications, a.argument.Fits

theorem ofStates_states (t : Trace) : ofStates t.states t.applications t.metadata = .ok t := by
  have hz : t.applications.zip (t.steps.map (·.goals)).reverse =
      t.steps.reverse.map fun s => (s.application, s.goals) := by
    rw [applications, ← List.map_reverse, ← List.map_reverse, List.zip_map']
  rw [states, ofStates, if_pos (by simp [applications]), hz, List.map_map, ← List.map_reverse,
    List.reverse_reverse]
  exact congrArg (fun steps => Except.ok { t with steps }) (List.map_id t.steps)

theorem denotes_record {t : Trace} (h : t.Storable) :
    Denotes TraceRecord.decoder t.json ⟨t.states, t.applications, t.metadata⟩ := by
  have hg := denotes_list fun g hg => Goals.denotes (h.valid g hg)
  have ha := denotes_list fun a ha => Application.denotes (h.fits a ha)
  refine Decoder.Gives.denotes (.cons hg (.cons ha ?_)) (by decide) _
  rw [metadataJson]
  split
  next he =>
    have hm : t.metadata = ∅ := SortedMap.eq_of_entries (List.isEmpty_iff.1 he)
    rw [hm]
    exact .skip (fun hp => by cases hp) .nil
  next => exact .cons (Decoder.denotes_map fun e _ => denotes_string e.2) .nil

theorem denotes {t : Trace} (h : t.Storable) : Denotes decoder t.json t :=
  (denotes_record h).checked (by rw [TraceRecord.trace, ofStates_states]; rfl)

end Trace

theorem Trace.load_of_storable {t : Trace} (h : t.Storable) :
    Trace.load t.json.pretty = .ok t ∧ Trace.load t.json.compact = .ok t := by
  obtain ⟨hc, hp⟩ := (Trace.denotes_record h).restores
  have ht : (TraceRecord.mk t.states t.applications t.metadata).trace = .ok t := t.ofStates_states
  rw [Trace.load, hp, Trace.load, hc]
  exact ⟨congrArg (Except.mapError _) ht, congrArg (Except.mapError _) ht⟩

theorem ProverKind.denotes (k : ProverKind) : Denotes decoder k.json k :=
  ⟨.string k.name, by cases k <;> rfl⟩

theorem DuplicatePolicy.denotes (p : DuplicatePolicy) : Denotes decoder p.json p :=
  ⟨.string p.label, by cases p <;> rfl⟩

theorem SearchStatus.denotes (s : SearchStatus) : Denotes decoder s.json s :=
  ⟨.string s.label, by cases s <;> rfl⟩

structure Config.Fits (c : Config) : Prop where
  maxDepth : c.maxDepth < Json.wordLimit
  maxStates : c.maxStates < Json.wordLimit
  maxFrontier : c.maxFrontier < Json.wordLimit

theorem Config.denotes {c : Config} (h : c.Fits) : Denotes decoder c.json c :=
  Decoder.Gives.denotes (.cons c.kind.denotes (.cons (denotes_string c.strategy)
    (.cons (denotes_nat h.maxDepth) (.cons (denotes_nat h.maxStates)
      (.cons (denotes_nat h.maxFrontier) (.cons c.duplicates.denotes .nil)))))) (by decide) _

namespace Problem

def Fits (p : Problem) : Prop := ∀ n ∈ p.maxDepth, n < Json.wordLimit

theorem json_eq (p : Problem) : p.json = .record (("id", .string p.id) ::
    ("description", .string p.description) :: ("goals", .strings p.goals) ::
    (memberOf "prover" (p.prover.map .string) ++ (memberOf "strategy" (p.strategy.map .string) ++
      (memberOf "rules" (p.rules.map .strings) ++ (memberOf "max_depth" (p.maxDepth.map .nat) ++
        (memberOf "provable" (p.provable.map .bool) ++ [])))))) := by
  simp [json, memberOf]

theorem denotes {p : Problem} (h : p.Fits) : Denotes decoder p.json p := by
  rw [json_eq]
  exact Decoder.Gives.denotes (.cons (denotes_string p.id) (.cons (denotes_string p.description)
    (.cons (denotes_strings p.goals)
      (.given (fun s _ => denotes_string s) (fun _ hj => by cases hj) rfl
        (.given (fun s _ => denotes_string s) (fun _ hj => by cases hj) rfl
          (.given (fun l _ => denotes_strings l) (fun _ hj => by cases hj) rfl
            (.given (fun n hn => denotes_nat (h n hn)) (fun _ hj => by cases hj) rfl
              (.given (fun b _ => denotes_bool b) (fun _ hj => by cases hj) rfl
                .nil)))))))) (by decide) _

end Problem

namespace SearchResult

structure Storable (r : SearchResult) : Prop where
  proof : ∀ t ∈ r.proof, t.Storable
  statesExplored : r.statesExplored < Json.wordLimit
  successorsGenerated : r.successorsGenerated < Json.wordLimit
  depthReached : r.depthReached < Json.wordLimit
  peakFrontier : r.peakFrontier < Json.wordLimit

theorem denotes_proof {proof : Option Trace} (h : ∀ t ∈ proof, t.Storable) :
    Denotes Trace.decoder.optional ((proof.map Trace.json).getD .null) proof := by
  cases proof with
  | none => exact Decoder.denotes_none
  | some t => exact (Trace.denotes (h t rfl)).some (fun hj => by cases hj)

theorem denotes {r : SearchResult} (h : r.Storable) : Denotes decoder r.json r :=
  Decoder.Gives.denotes (.cons r.status.denotes (.cons (denotes_proof h.proof)
    (.cons (denotes_nat h.statesExplored) (.cons (denotes_nat h.successorsGenerated)
      (.cons (denotes_nat h.depthReached) (.cons (denotes_bool r.boundReached)
        (.cons (denotes_nat h.peakFrontier) .nil))))))) (by decide) _

end SearchResult

/-- Traces, arguments, applications, settings, problems and search results are read back from the
texts they are written as, on one line or on many, whatever strings stand in them. -/
theorem written_values_restored :
    (∀ t : Trace, t.Storable →
      Trace.load t.json.pretty = .ok t ∧ Trace.load t.json.compact = .ok t) ∧
    (∀ a : Argument, a.Fits → Argument.decoder.Restores a.json a) ∧
    (∀ a : Application, a.argument.Fits → Application.decoder.Restores a.json a) ∧
    (∀ c : Config, c.Fits → Config.decoder.Restores c.json c) ∧
    (∀ p : Problem, p.Fits → Problem.decoder.Restores p.json p) ∧
    ∀ r : SearchResult, r.Storable → SearchResult.decoder.Restores r.json r :=
  ⟨fun _ => Trace.load_of_storable, fun _ h => (Argument.denotes h).restores,
    fun _ h => (Application.denotes h).restores, fun _ h => (Config.denotes h).restores,
    fun _ h => (Problem.denotes h).restores, fun _ h => (SearchResult.denotes h).restores⟩

def escapedStep : Application :=
  ⟨"rule \"\\\"\n",
    .spiderRegion ⟨0, 18446744073709551615⟩ "\x00 𝄞" (.ofList [.ofLists ["\x1f"] ["\x7f", ""]]),
    .tactic⟩

def escapedTrace : Trace :=
  ⟨[Diagram.manyScripts, .null], [⟨escapedStep, [.null]⟩], .ofList [("", "\t/"), ("é", "")]⟩

theorem escapedTrace_storable : escapedTrace.Storable where
  valid := by decide
  fits := by
    unfold Argument.Fits Target.Fits
    decide

theorem written_values_restored_escaped :
    (Trace.load escapedTrace.json.pretty = .ok escapedTrace ∧
      Trace.load escapedTrace.json.compact = .ok escapedTrace) ∧
    Argument.decoder.Restores escapedStep.argument.json escapedStep.argument ∧
    Application.decoder.Restores escapedStep.json escapedStep ∧
    Config.decoder.Restores (Config.json {}) {} ∧
    Problem.decoder.Restores (Problem.json { id := "", goals := ["Null"], maxDepth := some 0 })
      { id := "", goals := ["Null"], maxDepth := some 0 } ∧
    SearchResult.decoder.Restores (SearchResult.json ⟨.proved, some escapedTrace, 2, 1, 1, false, 1⟩)
      ⟨.proved, some escapedTrace, 2, 1, 1, false, 1⟩ :=
  ⟨written_values_restored.1 escapedTrace escapedTrace_storable,
    written_values_restored.2.1 _ (escapedTrace_storable.fits escapedStep (by decide)),
    written_values_restored.2.2.1 escapedStep (escapedTrace_storable.fits escapedStep (by decide)),
    written_values_restored.2.2.2.1 {} ⟨by decide, by decide, by decide⟩,
    written_values_restored.2.2.2.2.1 _ (by simp [Problem.Fits, Json.wordLimit]),
    written_values_restored.2.2.2.2.2 _
      ⟨by simp [escapedTrace_storable], by decide, by decide, by decide, by decide⟩⟩

end SpiderDiagrams
