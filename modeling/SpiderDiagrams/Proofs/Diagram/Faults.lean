import SpiderDiagrams.Proofs.Diagram.Acceptance

namespace SpiderDiagrams

/-- Some sequence that writes a tree begins with the tokens and goes on with one more. Of the tokens
given nothing is asked; those that complete them can be spelt. -/
def Raw.Continues (us : List Token) (v : Token) : Prop :=
  ∃ r vs, Raw.Written r (us ++ v :: vs) ∧ ∀ t ∈ v :: vs, t.Clean

theorem Raw.Continues.of_beginning {r : Raw} (us : List Token) {vs ws : List Token} {v : Token}
    (h : r.Written (us ++ ws)) (hc : ∀ t ∈ ws, t.Clean) (hv : vs ++ [v] <+: ws) :
    Continues (us ++ vs) v := by
  obtain ⟨xs, rfl⟩ := hv
  refine ⟨r, xs, ?_, fun t ht => hc t ?_⟩
  · simpa using h
  · rw [List.append_assoc]
    exact List.mem_append_right vs ht

theorem Raw.Written.not_continues {r : Raw} {us : List Token} (h : r.Written us) (v : Token) :
    ¬ Continues us v := by
  rintro ⟨r', vs, h', _⟩
  have hn : us.length ≤ (us ++ v :: vs).length := by simp
  have hus := Reader.diagram_correct h hn (v :: vs)
  have hall := Reader.diagram_correct h' (Nat.le_refl _) []
  rw [List.append_nil, hus] at hall
  cases hall

namespace Reader

open Raw

variable {C : List Token → Token → Prop} {ts us vs : List Token} {v : Token} {f : Fault}

/-- What the reader may ask for where some tokens may follow: a name only if any name may. -/
structure Viable (next : Token → Prop) (e : Expected) : Prop where
  continues : ∃ v, next v
  named : e = .name → ∀ s : String, '"' ∉ s.toList → next (.quoted s)
  unfinished : e ≠ .nothing

/-- The reader stopped at a viable place among the tokens, where `C` tells what may follow those that
were read. -/
def Stops (C : List Token → Token → Prop) (ts : List Token) (f : Fault) : Prop :=
  ∃ vs rest, ts = vs ++ rest ∧ rest.length = f.remaining ∧ Viable (C vs) f.expected

theorem Stops.here {e : Expected} (h : Viable (C []) e) : Stops C ts ⟨e, ts.length⟩ :=
  ⟨[], ts, rfl, rfl, h⟩

theorem Stops.after (us : List Token) (h : Stops (fun vs => C (us ++ vs)) ts f) :
    Stops C (us ++ ts) f := by
  obtain ⟨vs, rest, rfl, hf, hv⟩ := h
  exact ⟨us ++ vs, rest, (List.append_assoc ..).symm, hf, hv⟩

theorem Stops.mono {D : List Token → Token → Prop} (hi : ∀ vs v, C vs v → D vs v)
    (h : Stops C ts f) : Stops D ts f := by
  obtain ⟨vs, rest, rfl, hf, ⟨v, hv⟩, hn, he⟩ := h
  exact ⟨vs, rest, rfl, hf, ⟨v, hi vs v hv⟩, fun h s hs => hi vs _ (hn h s hs), he⟩

theorem word_stops {w : Word} (hc : C [] (.word w)) (h : word w ts = .error f) :
    Stops C ts f := by
  have hv : Viable (C []) .word := ⟨⟨_, hc⟩, nofun, nofun⟩
  unfold word at h
  split at h
  next =>
    split at h
    next => cases h
    next => cases h; exact .here hv
  next => cases h; exact .here hv

theorem mark_stops {m : Mark} (hc : C [] (.mark m)) (h : mark m ts = .error f) :
    Stops C ts f := by
  have hv : Viable (C []) .mark := ⟨⟨_, hc⟩, nofun, nofun⟩
  unfold mark at h
  split at h
  next =>
    split at h
    next => cases h
    next => cases h; exact .here hv
  next => cases h; exact .here hv

theorem name_stops (hc : ∀ s : String, '"' ∉ s.toList → C [] (.quoted s))
    (h : name ts = .error f) : Stops C ts f := by
  have hv : Viable (C []) .name := ⟨⟨_, hc "" (by decide)⟩, fun _ => hc, nofun⟩
  unfold name at h
  split at h
  next => cases h
  next => cases h; exact .here hv

theorem field_stops {w : Word} (hw : C [] (.word w)) (hm : C [.word w] (.mark .equals))
    (h : field w ts = .error f) : Stops C ts f := by
  rcases bind_eq_error h with h | ⟨_, hw', h⟩
  · exact word_stops hw h
  · rw [of_word hw']
    exact .after [_] (mark_stops hm h)

def nullEnding : List Token :=
  [.mark .comma, .word .secondOperand, .mark .equals, .word .nullDiagram, .mark .openBrace,
    .mark .closeBrace, .mark .closeBrace]

theorem clean_nullEnding : ∀ t ∈ nullEnding, t.Clean := by simp [nullEnding, Token.Clean]

variable {operator : String} {l r : Raw}

theorem written_nullEnding (operator : String) (h : l.Written ts) :
    (Raw.binary operator l .null).Written
      (.word .binaryDiagram :: opening operator ++ ts ++ nullEnding) := by
  have hw : (Raw.binary operator l .null).Written _ := .binary h .null
  simpa [nullEnding] using hw

theorem continues_opening (hs : '"' ∉ operator.toList) (hv : vs ++ [v] <+: opening operator) :
    Continues (.word .binaryDiagram :: vs) v := by
  have hw := written_nullEnding operator .null
  rw [List.append_assoc, List.cons_append] at hw
  refine .of_beginning [_] hw ?_ (hv.trans (List.prefix_append _ _))
  simp [Token.Clean, nullEnding, hs]

theorem continues_operator
    (hv : vs ++ [v] <+: [.mark .comma, .word .firstOperand, .mark .equals]) :
    Continues ([.word .binaryDiagram, .mark .openBrace, .word .operator, .mark .equals,
      .quoted operator] ++ vs) v := by
  refine .of_beginning _ (written_nullEnding operator .null) ?_ (hv.trans (List.prefix_append _ _))
  simp [Token.Clean, nullEnding]

theorem continues_first (h : Continues vs v) :
    Continues (.word .binaryDiagram :: (opening operator ++ vs)) v := by
  obtain ⟨r, ws, hw, hc⟩ := h
  refine ⟨.binary operator r .null, ws ++ nullEnding, ?_, ?_⟩
  · simpa using written_nullEnding operator hw
  · rw [← List.cons_append]
    exact List.forall_mem_append.2 ⟨hc, clean_nullEnding⟩

theorem continues_nullEnding (h : l.Written ts) (hv : vs ++ [v] <+: nullEnding) :
    Continues (.word .binaryDiagram :: (opening operator ++ (ts ++ vs))) v := by
  have hc := Continues.of_beginning _ (written_nullEnding operator h) clean_nullEnding hv
  rwa [List.append_assoc] at hc

theorem continues_second (h : l.Written ts) (hv : Continues vs v) :
    Continues (.word .binaryDiagram :: (opening operator ++ (ts ++
      (.mark .comma :: .word .secondOperand :: .mark .equals :: vs)))) v := by
  obtain ⟨r, ws, hw, hc⟩ := hv
  refine ⟨.binary operator l r, ws ++ [.mark .closeBrace], ?_, ?_⟩
  · have hb : (Raw.binary operator l r).Written _ := .binary h hw
    simpa using hb
  · rw [← List.cons_append]
    exact List.forall_mem_append.2 ⟨hc, List.forall_mem_singleton.2 trivial⟩

theorem continues_closing (hl : l.Written ts) (hr : r.Written us) :
    Continues (.word .binaryDiagram :: (opening operator ++ (ts ++
      (.mark .comma :: .word .secondOperand :: .mark .equals :: (us ++ [])))))
      (.mark .closeBrace) := by
  have hb : (Raw.binary operator l r).Written _ := .binary hl hr
  exact ⟨_, [], by simpa using hb, List.forall_mem_singleton.2 trivial⟩

variable {operand : List Token → Except Fault (Raw × List Token)}

theorem application_stops (ho : ∀ ts f, operand ts = .error f → Stops Continues ts f)
    (h : application operand ts = .error f) :
    Stops (fun vs => Continues (.word .binaryDiagram :: vs)) ts f := by
  have hempty : '"' ∉ "".toList := by decide
  -- at each step the reader either stops here, or what it takes joins what was read before
  rcases bind_eq_error h with h | ⟨_, h₁, h⟩
  · exact mark_stops (continues_opening hempty ⟨_, rfl⟩) h
  rw [of_mark h₁]
  apply Stops.after [_]
  rcases bind_eq_error h with h | ⟨_, h₂, h⟩
  · exact field_stops (continues_opening hempty ⟨_, rfl⟩) (continues_opening hempty ⟨_, rfl⟩) h
  rw [of_field h₂]
  apply Stops.after [_, _]
  rcases bind_eq_error h with h | ⟨⟨operator, _⟩, h₃, h⟩
  · exact name_stops (fun s hs => continues_opening hs ⟨_, rfl⟩) h
  rw [of_name h₃]
  apply Stops.after [_]
  rcases bind_eq_error h with h | ⟨_, h₄, h⟩
  · exact mark_stops (continues_operator ⟨_, rfl⟩) h
  rw [of_mark h₄]
  apply Stops.after [_]
  rcases bind_eq_error h with h | ⟨_, h₅, h⟩
  · exact field_stops (continues_operator ⟨_, rfl⟩) (continues_operator ⟨_, rfl⟩) h
  rw [of_field h₅]
  apply Stops.after [_, _]
  rcases bind_eq_error h with h | ⟨_, _, h⟩
  · exact (ho _ _ h).mono fun _ _ => continues_first
  · cases h

theorem binary_stops (hs : Accepts operand Raw.Written)
    (ho : ∀ ts f, operand ts = .error f → Stops Continues ts f) (h : binary operand ts = .error f) :
    Stops (fun vs => Continues (.word .binaryDiagram :: vs)) ts f := by
  rcases bind_eq_error h with h | ⟨⟨⟨operator, l⟩, _⟩, h₁, h⟩
  · exact application_stops ho h
  obtain ⟨us, hl, he⟩ := application_sound hs h₁
  rw [he, List.append_assoc]
  apply Stops.after (opening operator)
  apply Stops.after us
  rcases bind_eq_error h with h | ⟨_, h₂, h⟩
  · exact mark_stops (continues_nullEnding hl ⟨_, rfl⟩) h
  rw [of_mark h₂]
  apply Stops.after [_]
  rcases bind_eq_error h with h | ⟨_, h₃, h⟩
  · exact field_stops (continues_nullEnding hl ⟨_, rfl⟩) (continues_nullEnding hl ⟨_, rfl⟩) h
  rw [of_field h₃]
  apply Stops.after [_, _]
  rcases bind_eq_error h with h | ⟨⟨r, _⟩, h₄, h⟩
  · exact (ho _ _ h).mono fun _ _ => continues_second hl
  obtain ⟨vs, hr, he⟩ := hs _ _ _ h₄
  rw [he]
  apply Stops.after vs
  rcases bind_eq_error h with h | ⟨_, _, h⟩
  · exact mark_stops (continues_closing hl hr) h
  · cases h

/-- Wherever the reader of diagrams stops, what it has read can be completed. -/
theorem diagram_stops (n : Nat) (ts : List Token) (f : Fault) (h : diagram n ts = .error f) :
    Stops Continues ts f := by
  have hstart : Viable (Continues []) .word :=
    ⟨⟨_, .null, _, .null, by simp [Token.Clean]⟩, nofun, nofun⟩
  induction n generalizing ts f with
  | zero => cases h; exact .here hstart
  | succ n ih =>
      rw [diagram.eq_def] at h
      dsimp only at h
      split at h
      next => cases h
      next =>
        obtain ⟨_, rfl⟩ := mapError_eq_error h
        exact .here hstart
      next =>
        obtain ⟨_, rfl⟩ := mapError_eq_error h
        exact .here hstart
      next => exact .after [_] (binary_stops (diagram_sound n) ih h)
      next => cases h; exact .here hstart

end Reader

def Raw.IsText (s : String) : Prop := ∃ r : Raw, r.HasLayout s

theorem Raw.isText_append {r : Raw} {us vs : List Token} {s : String} (hw : r.Written (us ++ vs))
    (hl : Layout us s.toList) (hu : ∀ t ∈ us, t.Clean) (hv : ∀ t ∈ vs, t.Clean) :
    IsText (s ++ Token.text vs) := by
  refine ⟨r, us ++ vs, hw, List.forall_mem_append.2 ⟨hu, hv⟩, ?_⟩
  rw [String.toList_append]
  exact hl.append (layout_text vs)

theorem Raw.Continues.not_isText {us : List Token} {v : Token} {s : String} (h : Continues us v)
    (hl : Layout us s.toList) (hu : ∀ t ∈ us, t.Clean) : ¬ IsText s := by
  rintro ⟨r, ts, hw, ht, hl'⟩
  obtain rfl := hl.unique hl' hu ht
  exact hw.not_continues v h

namespace Reader

variable {text : String} {us rest : List Token} {f : Fault}

/-- The text before the place of a fault is a layout of the tokens before it. Only where a name was
asked for and the text ends within one, the place is the end of the text: one more quote makes the
whole text a layout of the tokens and the name. -/
theorem exists_before (h : (scan text).tokens.map (·.2) = us ++ rest)
    (hf : rest.length = f.remaining) :
    ∃ before after, text = before ++ after ∧
      before.utf8ByteSize = position (scan text) text.utf8ByteSize f ∧ (∀ t ∈ us, t.Clean) ∧
      (Layout us before.toList ∨ after = "" ∧ f.expected = .name ∧
        ∃ s : String, '"' ∉ s.toList ∧ Layout (us ++ [.quoted s]) (before ++ "\"").toList) := by
  obtain ⟨as, bs, he, rfl, rfl⟩ := List.map_eq_append_iff.1 h
  have hdrop : (scan text).tokens.drop ((scan text).tokens.length - f.remaining) = bs := by
    rw [← hf, he, List.length_map, List.length_append, Nat.add_sub_cancel, List.drop_left]
  obtain ⟨before, after, htext, hl, hc, hsize, hend⟩ := scanFrom_split he
  have hsplit : text = String.ofList before ++ String.ofList after := by
    rw [← String.ofList_append, ← htext, String.ofList_toList]
  have hl' : Layout (as.map (·.2)) (String.ofList before).toList := by rwa [String.toList_ofList]
  rw [Nat.zero_add] at hsize
  rw [position, hdrop]
  cases bs with
  | cons b bs => exact ⟨_, _, hsplit, hsize.symm, hc, .inl hl'⟩
  | nil =>
      by_cases hname : f.expected = .name ∧ (scan text).reason = .unclosed
      · obtain ⟨cs, rfl, hq⟩ := hend rfl hname.2
        refine ⟨text, "", by simp, (if_pos hname).symm, hc, .inr ⟨rfl, hname.1, .ofList cs, ?_, ?_⟩⟩
        · rwa [String.toList_ofList]
        · have hclosed : text ++ "\"" = .ofList before ++ (Token.quoted (.ofList cs)).spelling := by
            rw [hsplit]
            simp [Token.spelling, String.append_assoc, String.ofList_cons]
          rw [hclosed, String.toList_append, String.toList_ofList]
          exact hl.append (layout_spelling _)
      · exact ⟨_, _, hsplit, hsize.symm.trans (if_neg hname).symm, hc, .inl hl'⟩

theorem parse_stops {n : Nat} {e : Expected} (h : parse text = .error (.malformed n e)) :
    ∃ before after, text = before ++ after ∧ before.utf8ByteSize = n ∧
      (∃ rest, Raw.IsText (before ++ rest)) ∧ (e = .nothing ↔ Raw.IsText before) := by
  have htext : ¬ Raw.IsText text := by
    rintro ⟨r, hr⟩
    rw [parse_of_hasLayout hr] at h
    cases h
  rw [parse] at h
  dsimp only at h
  split at h
  next f hd =>
    cases h
    obtain ⟨us, rest, he, hf, ⟨v, hv⟩, hnamed, hne⟩ := diagram_stops _ _ _ hd
    obtain ⟨before, after, hsplit, hsize, hu, hl | ⟨rfl, hname, s, hs, hl⟩⟩ := exists_before he hf
    · have hbefore := hv.not_isText hl hu
      obtain ⟨r, vs, hw, hc⟩ := hv
      exact ⟨before, after, hsplit, hsize, ⟨_, Raw.isText_append hw hl hu hc⟩,
        fun he => absurd he hne, fun ht => absurd ht hbefore⟩
    · obtain ⟨r, vs, hw, hc⟩ := hnamed hname s hs
      obtain ⟨hq, hvs⟩ := List.forall_mem_cons.1 hc
      rw [List.append_cons] at hw
      have hu' : ∀ t ∈ us ++ [.quoted s], t.Clean :=
        List.forall_mem_append.2 ⟨hu, List.forall_mem_singleton.2 hq⟩
      have hclosed := Raw.isText_append hw hl hu' hvs
      rw [String.append_assoc] at hclosed
      rw [String.append_empty] at hsplit
      exact ⟨before, "", by rw [hsplit, String.append_empty], hsize, ⟨_, hclosed⟩,
        fun he => absurd he hne, fun ht => absurd (hsplit ▸ ht) htext⟩
  next raw rest hd =>
    split at h
    next => cases h
    next =>
      cases h
      obtain ⟨us, hw, he⟩ := diagram_sound _ _ _ _ hd
      obtain ⟨before, after, hsplit, hsize, hu, hl | ⟨_, hname, _⟩⟩ :=
        exists_before (f := ⟨.nothing, rest.length⟩) he rfl
      · have ht : Raw.IsText before := ⟨raw, us, hw, hu, hl⟩
        exact ⟨before, after, hsplit, hsize, ⟨"", by rwa [String.append_empty]⟩, fun _ => ht,
          fun _ => rfl⟩
      · cases hname

end Reader

theorem Expected.label_eq_iff {e : Expected} : e.label = "End of file" ↔ e = .nothing := by
  cases e <;> decide

namespace Diagram

/-- The offset of a syntax error lies within the text and between two of its characters. What stands
before it begins some well-formed text, and is one itself exactly if the error is that the text goes
on. -/
theorem read_malformed_position {text : String} {n : Nat} {e : Expected}
    (h : read text = .error (.malformed n e)) :
    n ≤ text.utf8ByteSize ∧ String.Pos.Raw.IsValid text ⟨n⟩ ∧
      ∃ before after, text = before ++ after ∧ before.utf8ByteSize = n ∧
        (∃ rest, Raw.IsText (before ++ rest)) ∧
        (e.label = "End of file" ↔ Raw.IsText before) := by
  rcases bind_eq_error h with h | ⟨r, _, h⟩
  · obtain ⟨before, after, rfl, rfl, hrest, hnothing⟩ := Reader.parse_stops h
    refine ⟨?_, ?_, before, after, rfl, rfl, hrest, Expected.label_eq_iff.trans hnothing⟩
    · rw [String.utf8ByteSize_append]
      exact Nat.le_add_right _ _
    · exact String.Pos.Raw.isValid_iff_exists_append.2 ⟨before, after, rfl, rfl⟩
  · exact absurd h (r.build_ne_malformed n e)

theorem read_malformed_position_nested :
    let s := "BinarySD \x7boperator = \"op ∧\", arg1 = NullSD \x7b\x7d, arg2 = NullSD \x7b]"
    (∃ before after, s = before ++ after ∧ before.utf8ByteSize = 56 ∧
      (∃ rest, Raw.IsText (before ++ rest)) ∧ ¬ Raw.IsText before) ∧
    ∃ before after, "NullSD \x7b\x7d ]" = before ++ after ∧ before.utf8ByteSize = 10 ∧
      Raw.IsText before := by
  intro s
  have hnested : read s = .error (.malformed 56 .word) := by decide +kernel
  have htrailing : read "NullSD \x7b\x7d ]" = .error (.malformed 10 .nothing) := by decide +kernel
  obtain ⟨_, _, before, after, he, hn, hrest, htext⟩ := read_malformed_position hnested
  obtain ⟨_, _, before', after', he', hn', _, htext'⟩ := read_malformed_position htrailing
  exact ⟨⟨before, after, he, hn, hrest, fun h => absurd (htext.2 h) (by decide)⟩,
    before', after', he', hn', htext'.1 rfl⟩

end Diagram

end SpiderDiagrams
