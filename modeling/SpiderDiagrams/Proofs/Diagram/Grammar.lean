import Mathlib.Data.List.Forall2
import SpiderDiagrams.Diagram.Reader

namespace SpiderDiagrams

def Token.quotedList (l : List String) : List Token :=
  Token.bracketed (l.map fun s => [Token.quoted s])

def Zone.Written (z : Zone) (ts : List Token) : Prop :=
  ∃ inside outside, z = .ofLists inside outside ∧
    ts = .mark .openParen :: Token.quotedList inside ++ .mark .comma :: Token.quotedList outside ++
      [.mark .closeParen]

def Raw.HabitatWritten (h : String × List Zone) (ts : List Token) : Prop :=
  ∃ zs, List.Forall₂ Zone.Written h.2 zs ∧
    ts = [.mark .openParen, .quoted h.1, .mark .comma] ++ Token.bracketed zs ++ [.mark .closeParen]

def Raw.opening (operator : String) : List Token :=
  [.mark .openBrace, .word .operator, .mark .equals, .quoted operator, .mark .comma,
    .word .firstOperand, .mark .equals]

/-- The token sequences that write a raw tree. -/
inductive Raw.Written : Raw → List Token → Prop
  | null : Written .null [.word .nullDiagram, .mark .openBrace, .mark .closeBrace]
  | primary {spiders : List String} {habitats : List (String × List Zone)} {shaded : List Zone}
      {hs zs : List (List Token)} (hh : List.Forall₂ HabitatWritten habitats hs)
      (hz : List.Forall₂ Zone.Written shaded zs) :
      Written (.primary spiders habitats shaded)
        ([.word .primaryDiagram, .mark .openBrace, .word .spiders, .mark .equals] ++
          Token.quotedList spiders ++ [.mark .comma, .word .habitats, .mark .equals] ++
          Token.bracketed hs ++ [.mark .comma, .word .shadedZones, .mark .equals] ++
          Token.bracketed zs ++ [.mark .closeBrace])
  | unary {operator : String} {d : Raw} {ts : List Token} (h : Written d ts) :
      Written (.unary operator d)
        (.word .unaryDiagram :: opening operator ++ ts ++ [.mark .closeBrace])
  | binary {operator : String} {l r : Raw} {ts us : List Token} (hl : Written l ts)
      (hr : Written r us) :
      Written (.binary operator l r)
        (.word .binaryDiagram :: opening operator ++ ts ++
          [.mark .comma, .word .secondOperand, .mark .equals] ++ us ++ [.mark .closeBrace])

namespace Reader

variable {α : Type} {item : List Token → Except Fault (α × List Token)}

def Reads (item : List Token → Except Fault (α × List Token)) (a : α) (ts : List Token) : Prop :=
  ∀ rest, item (ts ++ rest) = .ok (a, rest)

@[simp]
theorem word_cons (w : Word) (ts : List Token) : word w (.word w :: ts) = .ok ts := if_pos rfl

@[simp]
theorem mark_cons (m : Mark) (ts : List Token) : mark m (.mark m :: ts) = .ok ts := if_pos rfl

@[simp]
theorem field_cons (w : Word) (ts : List Token) :
    field w (.word w :: .mark .equals :: ts) = .ok ts := by
  simp [field, bind, Except.bind]

theorem name_reads (s : String) : Reads name s [.quoted s] := fun _ => rfl

/-- Tokens that are read as an item of a list: they do not begin with the bracket that closes it. -/
def ReadsItem (item : List Token → Except Fault (α × List Token)) (a : α) (ts : List Token) : Prop :=
  (∃ t us, ts = t :: us ∧ t ≠ .mark .closeBracket) ∧ Reads item a ts

theorem length_le_intercalate {l : List α} {ws : List (List Token)}
    (h : List.Forall₂ (ReadsItem item) l ws) :
    l.length ≤ ([Token.mark .comma].intercalate ws).length := by
  induction h with
  | nil => exact Nat.zero_le _
  | @cons a w l ws hw hl ih =>
      obtain ⟨⟨t, us, rfl, _⟩, _⟩ := hw
      cases hl with
      | nil => simp
      | @cons b v l ws hv hl =>
          simp only [List.intercalate_cons_cons, List.length_append, List.length_cons] at ih ⊢
          omega

theorem items_correct {l : List α} {ws : List (List Token)}
    (h : List.Forall₂ (ReadsItem item) l ws) (hne : l ≠ []) {n : Nat} (hn : l.length ≤ n)
    (rest : List Token) :
    items item n ([.mark .comma].intercalate ws ++ .mark .closeBracket :: rest) = .ok (l, rest) := by
  induction h generalizing n with
  | nil => exact absurd rfl hne
  | @cons a w l ws hw hl ih =>
      obtain ⟨m, rfl⟩ : ∃ m, n = m + 1 := ⟨n - 1, by simp only [List.length_cons] at hn; omega⟩
      cases hl with
      | nil =>
          have ha := hw.2 (.mark .closeBracket :: rest)
          rw [items]
          simp [ha, bind, Except.bind, pure, Except.pure]
      | @cons b v l ws hv hl =>
          have ha := hw.2 (.mark .comma :: ([.mark .comma].intercalate (v :: ws) ++
            .mark .closeBracket :: rest))
          have htail := ih (by simp) (n := m) (by simp only [List.length_cons] at hn ⊢; omega)
          rw [items, List.intercalate_cons_cons]
          simp [ha, htail, bind, Except.bind, pure, Except.pure]

theorem list_cons {t : Token} (ht : t ≠ .mark .closeBracket) (ts : List Token) :
    list item (.mark .openBracket :: t :: ts) = items item (t :: ts).length (t :: ts) := by
  rw [list, mark_cons]
  simp only [bind, Except.bind]
  split
  next us he => exact absurd (List.cons.inj he).1 ht
  next => rfl

theorem list_correct {l : List α} {ws : List (List Token)}
    (h : List.Forall₂ (ReadsItem item) l ws) : Reads (list item) l (Token.bracketed ws) := by
  intro rest
  have hlen := length_le_intercalate h
  cases h with
  | nil => rfl
  | @cons a w l ws hw hl =>
      obtain ⟨t, us, rfl, ht⟩ := hw.1
      obtain ⟨vs, hvs⟩ : ∃ vs, [Token.mark .comma].intercalate ((t :: us) :: ws) = t :: vs := by
        cases ws with
        | nil => exact ⟨us, by simp⟩
        | cons v ws => exact ⟨_, by rw [List.intercalate_cons_cons, List.cons_append, List.cons_append]⟩
      have hitems := items_correct (.cons hw hl) (List.cons_ne_nil a l)
        (n := (t :: (vs ++ .mark .closeBracket :: rest)).length)
        (by rw [hvs] at hlen; simp only [List.length_cons, List.length_append] at hlen ⊢; omega) rest
      rw [hvs] at hitems
      rw [Token.bracketed, hvs]
      simp only [List.cons_append, List.append_assoc, List.nil_append] at hitems ⊢
      rw [list_cons ht]
      exact hitems

theorem quotedList_correct (l : List String) : Reads (list name) l (Token.quotedList l) := by
  apply list_correct
  rw [List.forall₂_map_right_iff]
  exact List.forall₂_same.2 fun s _ => ⟨⟨_, _, rfl, by simp⟩, name_reads s⟩

theorem zone_correct {z : Zone} {ts : List Token} (h : z.Written ts) : ReadsItem zone z ts := by
  obtain ⟨inside, outside, rfl, rfl⟩ := h
  refine ⟨⟨_, _, rfl, by simp⟩, ?_⟩
  intro rest
  have hi := quotedList_correct inside (.mark .comma :: (Token.quotedList outside ++
    .mark .closeParen :: rest))
  have ho := quotedList_correct outside (.mark .closeParen :: rest)
  rw [zone]
  simp [hi, ho, bind, Except.bind, pure, Except.pure]

theorem zones_correct {l : List Zone} {ws : List (List Token)}
    (h : List.Forall₂ Zone.Written l ws) : Reads (list zone) l (Token.bracketed ws) :=
  list_correct (h.imp fun _ _ => zone_correct)

theorem habitat_correct {h : String × List Zone} {ts : List Token} (hw : Raw.HabitatWritten h ts) :
    ReadsItem habitat h ts := by
  obtain ⟨zs, hz, rfl⟩ := hw
  refine ⟨⟨_, _, rfl, by simp⟩, ?_⟩
  intro rest
  have hn := name_reads h.1 (.mark .comma :: (Token.bracketed zs ++ .mark .closeParen :: rest))
  have hr := zones_correct hz (.mark .closeParen :: rest)
  rw [habitat]
  simp only [List.cons_append, List.nil_append, List.append_assoc] at hn ⊢
  simp [hn, hr, bind, Except.bind, pure, Except.pure]

theorem primary_correct (spiders : List String) {habitats : List (String × List Zone)}
    {shaded : List Zone} {hs zs : List (List Token)}
    (hh : List.Forall₂ Raw.HabitatWritten habitats hs) (hz : List.Forall₂ Zone.Written shaded zs)
    (rest : List Token) :
    primary ([.mark .openBrace, .word .spiders, .mark .equals] ++ Token.quotedList spiders ++
      [.mark .comma, .word .habitats, .mark .equals] ++ Token.bracketed hs ++
      [.mark .comma, .word .shadedZones, .mark .equals] ++ Token.bracketed zs ++
      .mark .closeBrace :: rest) = .ok (.primary spiders habitats shaded, rest) := by
  have h₁ := quotedList_correct spiders (.mark .comma :: .word .habitats :: .mark .equals ::
    (Token.bracketed hs ++ .mark .comma :: .word .shadedZones :: .mark .equals ::
      (Token.bracketed zs ++ .mark .closeBrace :: rest)))
  have h₂ := list_correct (hh.imp fun _ _ => habitat_correct) (.mark .comma ::
    .word .shadedZones :: .mark .equals :: (Token.bracketed zs ++ .mark .closeBrace :: rest))
  have h₃ := zones_correct hz (.mark .closeBrace :: rest)
  rw [primary]
  simp [h₁, h₂, h₃, bind, Except.bind, pure, Except.pure]

theorem application_correct {operand : List Token → Except Fault (Raw × List Token)} {d : Raw}
    {ts : List Token} (h : Reads operand d ts) (operator : String) (rest : List Token) :
    application operand (Raw.opening operator ++ ts ++ rest) = .ok ((operator, d), rest) := by
  have hn := name_reads operator (.mark .comma :: .word .firstOperand :: .mark .equals :: (ts ++ rest))
  have hd := h rest
  rw [application, Raw.opening]
  simp only [List.cons_append, List.nil_append] at hn ⊢
  simp [hn, hd, bind, Except.bind, pure, Except.pure]

theorem unary_correct {operand : List Token → Except Fault (Raw × List Token)} {d : Raw}
    {ts : List Token} (h : Reads operand d ts) (operator : String) (rest : List Token) :
    unary operand (Raw.opening operator ++ ts ++ .mark .closeBrace :: rest) =
      .ok (.unary operator d, rest) := by
  rw [unary, application_correct h operator]
  simp [bind, Except.bind, pure, Except.pure]

theorem binary_correct {operand : List Token → Except Fault (Raw × List Token)} {l r : Raw}
    {ts us : List Token} (hl : Reads operand l ts) (hr : Reads operand r us) (operator : String)
    (rest : List Token) :
    binary operand (Raw.opening operator ++ ts ++ ([.mark .comma, .word .secondOperand,
      .mark .equals] ++ us ++ .mark .closeBrace :: rest)) = .ok (.binary operator l r, rest) := by
  have hr' := hr (.mark .closeBrace :: rest)
  rw [binary, application_correct hl operator]
  simp [hr', bind, Except.bind, pure, Except.pure]

/-- The reader takes a sequence that writes a tree for that tree, if it may nest as deep as the
sequence is long. -/
theorem diagram_correct {r : Raw} {ts : List Token} (h : r.Written ts) {n : Nat}
    (hn : ts.length ≤ n) : Reads (diagram n) r ts := by
  induction h generalizing n with
  | null =>
      obtain ⟨m, rfl⟩ : ∃ m, n = m + 1 := ⟨n - 1, by simp only [List.length_cons] at hn; omega⟩
      exact fun rest => rfl
  | @primary spiders habitats shaded hs zs hh hz =>
      simp only [List.length_append, List.length_cons] at hn
      obtain ⟨m, rfl⟩ : ∃ m, n = m + 1 := ⟨n - 1, by omega⟩
      intro rest
      have hp := primary_correct spiders hh hz rest
      simp only [List.cons_append, List.nil_append, List.append_assoc] at hp ⊢
      rw [diagram, hp]
      rfl
  | @unary operator d ts h ih =>
      simp only [List.length_append, List.length_cons] at hn
      obtain ⟨m, rfl⟩ : ∃ m, n = m + 1 := ⟨n - 1, by omega⟩
      intro rest
      have hu := unary_correct (ih (n := m) (by omega)) operator rest
      simp only [List.cons_append, List.nil_append, List.append_assoc] at hu ⊢
      rw [diagram, hu]
      rfl
  | @binary operator l r ts us hl hr ihl ihr =>
      simp only [List.length_append, List.length_cons] at hn
      obtain ⟨m, rfl⟩ : ∃ m, n = m + 1 := ⟨n - 1, by omega⟩
      intro rest
      have hb := binary_correct (ihl (n := m) (by omega)) (ihr (n := m) (by omega)) operator rest
      simp only [List.cons_append, List.nil_append, List.append_assoc] at hb ⊢
      rw [diagram, hb]

end Reader

end SpiderDiagrams
