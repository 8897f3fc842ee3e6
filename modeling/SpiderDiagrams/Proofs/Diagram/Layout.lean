import SpiderDiagrams.Diagram.Scan

namespace SpiderDiagrams

namespace Token

def Clean : Token → Prop
  | quoted s => '"' ∉ s.toList
  | word _ | mark _ => True

theorem untilQuote_append {s : List Char} (h : '"' ∉ s) (rest : List Char) :
    untilQuote (s ++ '"' :: rest) = some (s, rest) := by
  induction s with
  | nil => rfl
  | cons c s ih =>
      have hc : c ≠ '"' := fun he => h (he ▸ List.mem_cons_self)
      have hs : '"' ∉ s := fun hm => h (List.mem_cons_of_mem _ hm)
      rw [List.cons_append, untilQuote, if_neg hc, ih hs]
      rfl

theorem first?_spelling {t : Token} (h : t.Clean) (rest : List Char) :
    first? (t.spelling.toList ++ rest) = some (t, rest) := by
  cases t with
  | word w => cases w <;> rfl
  | mark m => cases m <;> rfl
  | quoted s =>
      have he : (quoted s).spelling.toList ++ rest = '"' :: (s.toList ++ '"' :: rest) := by
        simp [spelling]
      rw [he, first?, if_pos rfl, untilQuote_append h]
      simp

theorem exists_spelling (t : Token) :
    ∃ c cs, t.spelling.toList = c :: cs ∧ isBlank c = false := by
  cases t with
  | word w => cases w <;> exact ⟨_, _, rfl, rfl⟩
  | mark m => cases m <;> exact ⟨_, _, rfl, rfl⟩
  | quoted s => exact ⟨'"', s.toList ++ ['"'], by simp [spelling], rfl⟩

theorem untilQuote_eq_some {cs s r : List Char} (h : untilQuote cs = some (s, r)) :
    cs = s ++ '"' :: r ∧ '"' ∉ s := by
  induction cs generalizing s with
  | nil => cases h
  | cons c cs ih =>
      rw [untilQuote] at h
      by_cases hc : c = '"'
      · rw [if_pos hc] at h
        cases h
        exact ⟨by rw [hc]; rfl, List.not_mem_nil⟩
      · rw [if_neg hc] at h
        obtain ⟨⟨s', r'⟩, h', he⟩ := Option.map_eq_some_iff.1 h
        cases he
        obtain ⟨rfl, hs⟩ := ih h'
        refine ⟨rfl, ?_⟩
        rintro (_ | ⟨_, hm⟩)
        · exact hc rfl
        · exact hs hm

theorem not_mem_of_untilQuote {cs : List Char} (h : untilQuote cs = none) : '"' ∉ cs := by
  intro hm
  obtain ⟨as, bs, rfl, ha⟩ := List.eq_append_cons_of_mem hm
  rw [untilQuote_append ha] at h
  cases h

theorem first?_eq_some {cs r : List Char} {t : Token} (h : first? cs = some (t, r)) :
    cs = t.spelling.toList ++ r ∧ t.Clean := by
  cases cs with
  | nil => cases h
  | cons c cs =>
      rw [first?] at h
      split at h
      next hc =>
        obtain ⟨⟨s, r'⟩, h', he⟩ := Option.map_eq_some_iff.1 h
        cases he
        obtain ⟨rfl, hs⟩ := untilQuote_eq_some h'
        refine ⟨?_, by simpa [Clean] using hs⟩
        simp [spelling, hc]
      next hc =>
        split at h
        next m hm =>
          cases h
          refine ⟨?_, trivial⟩
          simp [spelling, Mark.ofChar?_eq_some_iff.1 hm]
        next hm =>
          obtain ⟨w, hw, he⟩ := Option.map_eq_some_iff.1 h
          cases he
          have hp := List.find?_some hw
          rw [List.isPrefixOf_iff_prefix] at hp
          exact ⟨(List.prefix_iff_eq_append.1 hp).symm, trivial⟩

theorem not_mem_of_first? {cs : List Char} (h : first? ('"' :: cs) = none) : '"' ∉ cs := by
  rw [first?, if_pos rfl, Option.map_eq_none_iff] at h
  exact not_mem_of_untilQuote h

end Token

def Blank (cs : List Char) : Prop := ∀ c ∈ cs, isBlank c = true

theorem blank_nil : Blank [] := fun _ hc => absurd hc List.not_mem_nil

theorem blank_singleton {c : Char} (hc : isBlank c = true) : Blank [c] :=
  List.forall_mem_singleton.2 hc

/-- The texts that write a sequence of tokens, with blanks before and after each of them. -/
inductive Layout : List Token → List Char → Prop
  | nil {bs : List Char} (hb : Blank bs) : Layout [] bs
  | cons {bs cs : List Char} {t : Token} {ts : List Token} (hb : Blank bs) (h : Layout ts cs) :
      Layout (t :: ts) (bs ++ (t.spelling.toList ++ cs))

theorem Layout.blank_append {bs cs : List Char} {ts : List Token} (hb : Blank bs)
    (h : Layout ts cs) : Layout ts (bs ++ cs) := by
  have happ {as : List Char} (ha : Blank as) : Blank (bs ++ as) := by
    intro c hc
    rcases List.mem_append.1 hc with hc | hc
    · exact hb c hc
    · exact ha c hc
  cases h with
  | nil ha => exact .nil (happ ha)
  | cons ha h =>
      rw [← List.append_assoc]
      exact .cons (happ ha) h

theorem Layout.append {ts us : List Token} {cs ds : List Char} (h : Layout ts cs)
    (h' : Layout us ds) : Layout (ts ++ us) (cs ++ ds) := by
  induction h with
  | nil hb => exact h'.blank_append hb
  | cons hb _ ih =>
      rw [List.append_assoc, List.append_assoc]
      exact .cons hb ih

theorem layout_spelling (t : Token) : Layout [t] t.spelling.toList := by
  simpa using Layout.cons (t := t) blank_nil (.nil blank_nil)

theorem scanFrom_blank {bs : List Char} (hb : Blank bs) (offset : Nat) (cs : List Char) :
    ∃ offset', scanFrom offset (bs ++ cs) = scanFrom offset' cs := by
  induction bs generalizing offset with
  | nil => exact ⟨offset, rfl⟩
  | cons b bs ih =>
      rw [List.cons_append, scanFrom, if_pos (hb b List.mem_cons_self)]
      exact ih (fun c hc => hb c (List.mem_cons_of_mem _ hc)) _

theorem scanFrom_spelling {t : Token} (ht : t.Clean) (offset : Nat) (cs : List Char) :
    scanFrom offset (t.spelling.toList ++ cs) =
      { scanFrom (offset + t.spelling.utf8ByteSize) cs with
        tokens := (offset, t) :: (scanFrom (offset + t.spelling.utf8ByteSize) cs).tokens } := by
  obtain ⟨c, r, he, hc⟩ := t.exists_spelling
  have hf := Token.first?_spelling ht cs
  rw [he, List.cons_append] at hf ⊢
  rw [scanFrom]
  simp only [hc, Bool.false_eq_true, if_false]
  split
  next u rest hu =>
    rw [hf] at hu
    obtain ⟨rfl, rfl⟩ := Prod.mk.inj (Option.some.inj hu)
    rfl
  next hn =>
    rw [hf] at hn
    cases hn

theorem scanFrom_layout {ts : List Token} {cs : List Char} (h : Layout ts cs)
    (hc : ∀ t ∈ ts, t.Clean) (offset : Nat) :
    (scanFrom offset cs).reason = .finished ∧ (scanFrom offset cs).tokens.map (·.2) = ts := by
  induction h generalizing offset with
  | @nil bs hb =>
      obtain ⟨offset', he⟩ := scanFrom_blank hb offset []
      rw [List.append_nil] at he
      rw [he, scanFrom]
      exact ⟨rfl, rfl⟩
  | @cons bs cs t ts hb h ih =>
      obtain ⟨offset', he⟩ := scanFrom_blank hb offset (t.spelling.toList ++ cs)
      rw [he, scanFrom_spelling (hc t List.mem_cons_self)]
      obtain ⟨hr, ht⟩ := ih (fun u hu => hc u (List.mem_cons_of_mem _ hu))
        (offset' + t.spelling.utf8ByteSize)
      exact ⟨hr, congrArg (t :: ·) ht⟩

theorem Layout.unique {ts us : List Token} {cs : List Char} (h : Layout ts cs) (h' : Layout us cs)
    (ht : ∀ t ∈ ts, t.Clean) (hu : ∀ t ∈ us, t.Clean) : ts = us :=
  (scanFrom_layout h ht 0).2.symm.trans (scanFrom_layout h' hu 0).2

theorem layout_scanFrom {offset : Nat} {cs : List Char}
    (h : (scanFrom offset cs).reason = .finished) :
    Layout ((scanFrom offset cs).tokens.map (·.2)) cs ∧
      ∀ t ∈ (scanFrom offset cs).tokens.map (·.2), t.Clean := by
  fun_induction scanFrom offset cs with
  | case1 offset => exact ⟨.nil blank_nil, fun t ht => by simp at ht⟩
  | case2 offset c cs hc ih =>
      obtain ⟨hl, ht⟩ := ih h
      exact ⟨hl.blank_append (blank_singleton hc), ht⟩
  | case3 offset c cs hc t rest hf _ s ih =>
      obtain ⟨hl, hs⟩ := ih h
      obtain ⟨he, ht⟩ := Token.first?_eq_some hf
      refine ⟨?_, List.forall_mem_cons.2 ⟨ht, hs⟩⟩
      rw [he]
      exact Layout.cons blank_nil hl
  | case4 offset c cs hc hf =>
      split at h <;> cases h

/-- Characters before a place between the tokens of a text that begins at the given offset: they are
a layout of the tokens before it, and as long as the place is far from the beginning. A text that
ends within a name goes on there with a quote that is its last one. -/
theorem scanFrom_split {offset : Nat} {cs : List Char} {as bs : List (Nat × Token)}
    (h : (scanFrom offset cs).tokens = as ++ bs) :
    ∃ before after, cs = before ++ after ∧ Layout (as.map (·.2)) before ∧
      (∀ t ∈ as.map (·.2), t.Clean) ∧
      (bs.head?.map (·.1)).getD (scanFrom offset cs).endOffset =
        offset + (String.ofList before).utf8ByteSize ∧
      (bs = [] → (scanFrom offset cs).reason = .unclosed →
        ∃ rest, after = '"' :: rest ∧ '"' ∉ rest) := by
  fun_induction scanFrom offset cs generalizing as with
  | case1 offset =>
      obtain ⟨rfl, rfl⟩ := List.append_eq_nil_iff.1 h.symm
      refine ⟨[], [], rfl, .nil blank_nil, by simp, rfl, ?_⟩
      intro _ hr
      cases hr
  | case2 offset c cs hc ih =>
      obtain ⟨before, after, rfl, hl, ht, hsize, hend⟩ := ih h
      refine ⟨c :: before, after, rfl, hl.blank_append (blank_singleton hc), ht, ?_, hend⟩
      rw [hsize, String.ofList_cons, String.utf8ByteSize_append, String.utf8ByteSize_singleton,
        Nat.add_assoc]
  | case3 offset c cs hc t rest hf _ s =>
      rename_i ih
      cases as with
      | nil =>
          rw [List.nil_append] at h
          subst h
          refine ⟨[], c :: cs, rfl, .nil blank_nil, by simp, rfl, ?_⟩
          intro he
          cases he
      | cons a as =>
          obtain ⟨rfl, hrest⟩ := List.cons.inj h
          obtain ⟨he, ht⟩ := Token.first?_eq_some hf
          obtain ⟨before, after, rfl, hl, hs, hsize, hend⟩ := ih hrest
          refine ⟨t.spelling.toList ++ before, after, ?_, .cons blank_nil hl,
            List.forall_mem_cons.2 ⟨ht, hs⟩, ?_, hend⟩
          · rw [he, List.append_assoc]
          · rw [hsize, String.ofList_append, String.utf8ByteSize_append, String.ofList_toList,
              Nat.add_assoc]
  | case4 offset c cs hc hf =>
      obtain ⟨rfl, rfl⟩ := List.append_eq_nil_iff.1 h.symm
      refine ⟨[], c :: cs, rfl, .nil blank_nil, by simp, rfl, ?_⟩
      intro _ hr
      split at hr
      next hq =>
        subst hq
        exact ⟨cs, rfl, Token.not_mem_of_first? hf⟩
      next => cases hr

theorem Token.exists_printed (t : Token) :
    ∃ as bs, Blank as ∧ Blank bs ∧ t.printed.toList = as ++ (t.spelling.toList ++ bs) := by
  have hblank : Blank [' '] := blank_singleton rfl
  cases t with
  | word w =>
      cases hw : w.opensDiagram with
      | true => exact ⟨[], [' '], blank_nil, hblank, by simp [printed, spelling, hw]⟩
      | false => exact ⟨[], [], blank_nil, blank_nil, by simp [printed, spelling, hw]⟩
  | mark m =>
      cases m with
      | comma => exact ⟨[], [' '], blank_nil, hblank, rfl⟩
      | equals => exact ⟨[' '], [' '], hblank, hblank, rfl⟩
      | openBrace | closeBrace | openBracket | closeBracket | openParen | closeParen =>
          exact ⟨[], [], blank_nil, blank_nil, rfl⟩
  | quoted s => exact ⟨[], [], blank_nil, blank_nil, by simp [printed]⟩

theorem layout_text (ts : List Token) : Layout ts (Token.text ts).toList := by
  rw [Token.toList_text]
  induction ts with
  | nil => exact .nil blank_nil
  | cons t ts ih =>
      obtain ⟨as, bs, ha, hb, he⟩ := t.exists_printed
      rw [List.flatMap_cons, he, List.append_assoc, List.append_assoc]
      exact .cons ha (ih.blank_append hb)

end SpiderDiagrams
