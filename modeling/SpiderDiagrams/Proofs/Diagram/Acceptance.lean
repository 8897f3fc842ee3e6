import SpiderDiagrams.Proofs.Diagram.Grammar
import SpiderDiagrams.Proofs.Diagram.Layout
import SpiderDiagrams.Proofs.Primary

namespace SpiderDiagrams

theorem bind_eq_ok {α β ε : Type} {x : Except ε α} {f : α → Except ε β} {b : β}
    (h : x >>= f = .ok b) : ∃ a, x = .ok a ∧ f a = .ok b := by
  cases x with
  | error => cases h
  | ok a => exact ⟨a, rfl, h⟩

theorem bind_eq_error {α β ε : Type} {x : Except ε α} {f : α → Except ε β} {e : ε}
    (h : x >>= f = .error e) : x = .error e ∨ ∃ a, x = .ok a ∧ f a = .error e := by
  cases x with
  | error => cases h; exact .inl rfl
  | ok a => exact .inr ⟨a, rfl, h⟩

theorem mapError_eq_error {α ε ε' : Type} {g : ε → ε'} {x : Except ε α} {e : ε'}
    (h : x.mapError g = .error e) : ∃ e', g e' = e := by
  cases x with
  | error e' => exact ⟨e', Except.error.inj h⟩
  | ok => cases h

namespace Reader

variable {α : Type} {item : List Token → Except Fault (α × List Token)}
  {W : α → List Token → Prop} {ts rest : List Token}

theorem of_word {w : Word} (h : word w ts = .ok rest) : ts = .word w :: rest := by
  unfold word at h
  split at h
  next v us =>
    split at h
    next hv => cases h; rw [hv]
    next => cases h
  next => cases h

theorem of_mark {m : Mark} (h : mark m ts = .ok rest) : ts = .mark m :: rest := by
  unfold mark at h
  split at h
  next n us =>
    split at h
    next hn => cases h; rw [hn]
    next => cases h
  next => cases h

theorem of_name {s : String} (h : name ts = .ok (s, rest)) : ts = .quoted s :: rest := by
  unfold name at h
  split at h
  next => cases h; rfl
  next => cases h

theorem of_field {w : Word} (h : field w ts = .ok rest) :
    ts = .word w :: .mark .equals :: rest := by
  obtain ⟨us, hw, hm⟩ := bind_eq_ok h
  rw [of_word hw, of_mark hm]

/-- What the reader takes for a value is written for it. -/
def Accepts (item : List Token → Except Fault (α × List Token)) (W : α → List Token → Prop) : Prop :=
  ∀ ts a rest, item ts = .ok (a, rest) → ∃ us, W a us ∧ ts = us ++ rest

theorem name_sound : Accepts name fun s us => us = [.quoted s] := by
  intro ts s rest h
  exact ⟨_, rfl, of_name h⟩

theorem items_sound (hi : Accepts item W) {n : Nat} {l : List α}
    (h : items item n ts = .ok (l, rest)) :
    ∃ ws, List.Forall₂ W l ws ∧
      ts = [.mark .comma].intercalate ws ++ .mark .closeBracket :: rest ∧ ws ≠ [] := by
  induction n generalizing ts l with
  | zero => cases h
  | succ n ih =>
      rw [items] at h
      obtain ⟨_, ha, hafter⟩ := bind_eq_ok h
      split at hafter
      next a us =>
        obtain ⟨w, hw, rfl⟩ := hi _ a _ ha
        obtain ⟨_, hm, hend⟩ := bind_eq_ok hafter
        cases hend
        obtain ⟨ws, hws, rfl, hne⟩ := ih hm
        obtain ⟨v, ws, rfl⟩ := List.exists_cons_of_ne_nil hne
        refine ⟨w :: v :: ws, .cons hw hws, ?_, by simp⟩
        simp [List.intercalate_cons_cons]
      next a us _ =>
        obtain ⟨w, hw, rfl⟩ := hi _ a us ha
        obtain ⟨_, hm, hend⟩ := bind_eq_ok hafter
        cases hend
        refine ⟨[w], .cons hw .nil, ?_, by simp⟩
        rw [of_mark hm, List.intercalate_singleton]

theorem list_sound (hi : Accepts item W) :
    Accepts (list item) fun l us => ∃ ws, List.Forall₂ W l ws ∧ us = Token.bracketed ws := by
  intro ts l rest h
  rw [list] at h
  obtain ⟨us, hb, h⟩ := bind_eq_ok h
  rw [of_mark hb]
  split at h
  next us =>
    cases h
    exact ⟨_, ⟨[], .nil, rfl⟩, rfl⟩
  next =>
    obtain ⟨ws, hws, rfl, _⟩ := items_sound hi h
    refine ⟨_, ⟨ws, hws, rfl⟩, ?_⟩
    simp [Token.bracketed]

theorem names_sound : Accepts (list name) fun l us => us = Token.quotedList l := by
  intro ts l rest h
  obtain ⟨us, ⟨ws, hws, rfl⟩, rfl⟩ := list_sound name_sound ts l rest h
  have he : ws = l.map fun s => [Token.quoted s] := by
    clear h
    induction hws with
    | nil => rfl
    | cons hw _ ih => rw [List.map_cons, ih, hw]
  exact ⟨_, by rw [he]; rfl, rfl⟩

theorem zone_sound : Accepts zone Zone.Written := by
  intro ts z rest h
  rw [zone] at h
  obtain ⟨_, h₁, h⟩ := bind_eq_ok h
  obtain ⟨⟨inside, _⟩, h₂, h⟩ := bind_eq_ok h
  obtain ⟨_, h₃, h⟩ := bind_eq_ok h
  obtain ⟨⟨outside, _⟩, h₄, h⟩ := bind_eq_ok h
  obtain ⟨_, h₅, h⟩ := bind_eq_ok h
  cases h
  obtain ⟨_, rfl, rfl⟩ := names_sound _ _ _ h₂
  obtain ⟨_, rfl, rfl⟩ := names_sound _ _ _ h₄
  refine ⟨_, ⟨inside, outside, rfl, rfl⟩, ?_⟩
  rw [of_mark h₁, of_mark h₃, of_mark h₅]
  simp

theorem habitat_sound : Accepts habitat Raw.HabitatWritten := by
  intro ts e rest h
  rw [habitat] at h
  obtain ⟨_, h₁, h⟩ := bind_eq_ok h
  obtain ⟨⟨spider, _⟩, h₂, h⟩ := bind_eq_ok h
  obtain ⟨_, h₃, h⟩ := bind_eq_ok h
  obtain ⟨⟨region, _⟩, h₄, h⟩ := bind_eq_ok h
  obtain ⟨_, h₅, h⟩ := bind_eq_ok h
  cases h
  obtain ⟨_, ⟨zs, hz, rfl⟩, rfl⟩ := list_sound zone_sound _ _ _ h₄
  refine ⟨_, ⟨zs, hz, rfl⟩, ?_⟩
  rw [of_mark h₁, of_name h₂, of_mark h₃, of_mark h₅]
  simp

theorem primary_sound {r : Raw} (h : primary ts = .ok (r, rest)) :
    ∃ us, r.Written (.word .primaryDiagram :: us) ∧ ts = us ++ rest := by
  rw [primary] at h
  obtain ⟨_, h₁, h⟩ := bind_eq_ok h
  obtain ⟨_, h₂, h⟩ := bind_eq_ok h
  obtain ⟨⟨spiders, _⟩, h₃, h⟩ := bind_eq_ok h
  obtain ⟨_, h₄, h⟩ := bind_eq_ok h
  obtain ⟨_, h₅, h⟩ := bind_eq_ok h
  obtain ⟨⟨habitats, _⟩, h₆, h⟩ := bind_eq_ok h
  obtain ⟨_, h₇, h⟩ := bind_eq_ok h
  obtain ⟨_, h₈, h⟩ := bind_eq_ok h
  obtain ⟨⟨shaded, _⟩, h₉, h⟩ := bind_eq_ok h
  obtain ⟨_, h₁₀, h⟩ := bind_eq_ok h
  cases h
  obtain ⟨_, rfl, rfl⟩ := names_sound _ _ _ h₃
  obtain ⟨_, ⟨hs, hh, rfl⟩, rfl⟩ := list_sound habitat_sound _ _ _ h₆
  obtain ⟨_, ⟨zs, hz, rfl⟩, rfl⟩ := list_sound zone_sound _ _ _ h₉
  refine ⟨_, .primary hh hz, ?_⟩
  rw [of_mark h₁, of_field h₂, of_mark h₄, of_field h₅, of_mark h₇, of_field h₈, of_mark h₁₀]
  simp

variable {operand : List Token → Except Fault (Raw × List Token)}

theorem application_sound (ho : Accepts operand Raw.Written) {operator : String} {d : Raw}
    (h : application operand ts = .ok ((operator, d), rest)) :
    ∃ us, d.Written us ∧ ts = Raw.opening operator ++ us ++ rest := by
  rw [application] at h
  obtain ⟨_, h₁, h⟩ := bind_eq_ok h
  obtain ⟨_, h₂, h⟩ := bind_eq_ok h
  obtain ⟨⟨op, _⟩, h₃, h⟩ := bind_eq_ok h
  obtain ⟨_, h₄, h⟩ := bind_eq_ok h
  obtain ⟨_, h₅, h⟩ := bind_eq_ok h
  obtain ⟨⟨e, _⟩, h₆, h⟩ := bind_eq_ok h
  cases h
  obtain ⟨us, hd, rfl⟩ := ho _ _ _ h₆
  refine ⟨us, hd, ?_⟩
  rw [of_mark h₁, of_field h₂, of_name h₃, of_mark h₄, of_field h₅]
  rfl

theorem unary_sound (ho : Accepts operand Raw.Written) {r : Raw}
    (h : unary operand ts = .ok (r, rest)) :
    ∃ us, r.Written (.word .unaryDiagram :: us) ∧ ts = us ++ rest := by
  rw [unary] at h
  obtain ⟨⟨⟨operator, d⟩, _⟩, h₁, h⟩ := bind_eq_ok h
  obtain ⟨_, h₂, h⟩ := bind_eq_ok h
  cases h
  obtain ⟨us, hd, rfl⟩ := application_sound ho h₁
  refine ⟨_, .unary hd, ?_⟩
  rw [of_mark h₂]
  simp

theorem binary_sound (ho : Accepts operand Raw.Written) {r : Raw}
    (h : binary operand ts = .ok (r, rest)) :
    ∃ us, r.Written (.word .binaryDiagram :: us) ∧ ts = us ++ rest := by
  rw [binary] at h
  obtain ⟨⟨⟨operator, d⟩, _⟩, h₁, h⟩ := bind_eq_ok h
  obtain ⟨_, h₂, h⟩ := bind_eq_ok h
  obtain ⟨_, h₃, h⟩ := bind_eq_ok h
  obtain ⟨⟨e, _⟩, h₄, h⟩ := bind_eq_ok h
  obtain ⟨_, h₅, h⟩ := bind_eq_ok h
  cases h
  obtain ⟨us, hd, rfl⟩ := application_sound ho h₁
  obtain ⟨vs, he, rfl⟩ := ho _ _ _ h₄
  refine ⟨_, .binary hd he, ?_⟩
  rw [of_mark h₂, of_field h₃, of_mark h₅]
  simp

theorem diagram_sound (n : Nat) : Accepts (diagram n) Raw.Written := by
  induction n with
  | zero => intro ts r rest h; cases h
  | succ n ih =>
      intro ts r rest h
      rw [diagram.eq_def] at h
      dsimp only at h
      split at h
      next => cases h; exact ⟨_, .null, rfl⟩
      next =>
        obtain ⟨us, hr, rfl⟩ := primary_sound (mapError_eq_ok h)
        exact ⟨_, hr, rfl⟩
      next =>
        obtain ⟨us, hr, rfl⟩ := unary_sound ih (mapError_eq_ok h)
        exact ⟨_, hr, rfl⟩
      next =>
        obtain ⟨us, hr, rfl⟩ := binary_sound ih h
        exact ⟨_, hr, rfl⟩
      next => cases h

end Reader

/-- A text is a layout of a raw tree: a token sequence that writes the tree, with blanks around its
tokens. -/
def Raw.HasLayout (r : Raw) (s : String) : Prop :=
  ∃ ts, r.Written ts ∧ (∀ t ∈ ts, t.Clean) ∧ Layout ts s.toList

theorem Reader.parse_of_hasLayout {r : Raw} {s : String} (h : r.HasLayout s) : parse s = .ok r := by
  obtain ⟨ts, hw, hc, hl⟩ := h
  obtain ⟨hr, ht⟩ := scanFrom_layout hl hc 0
  have hn : ts.length ≤ (scan s).tokens.length + 1 := by
    rw [← ht, List.length_map]
    exact Nat.le_succ _
  have hd := diagram_correct hw hn []
  rw [List.append_nil, ← ht] at hd
  rw [parse]
  simp only [scan] at hd ⊢
  simp only [hd, hr]
  rfl

theorem Reader.hasLayout_of_parse {r : Raw} {s : String} (h : parse s = .ok r) : r.HasLayout s := by
  rw [parse] at h
  dsimp only at h
  split at h
  next => cases h
  next raw rest hd =>
    split at h
    next hend =>
      cases h
      obtain ⟨us, hw, he⟩ := diagram_sound _ _ _ _ hd
      rw [List.isEmpty_iff.1 hend.1, List.append_nil] at he
      obtain ⟨hl, hc⟩ := layout_scanFrom hend.2
      exact ⟨us, hw, he ▸ hc, he ▸ hl⟩
    next => cases h

theorem Raw.HasLayout.unique {r r' : Raw} {s : String} (h : r.HasLayout s) (h' : r'.HasLayout s) :
    r = r' := by
  have he := Reader.parse_of_hasLayout h
  rw [Reader.parse_of_hasLayout h'] at he
  exact (Except.ok.inj he).symm

theorem Reader.malformed_of_parse {s : String} {e : ReadError} (h : parse s = .error e) :
    ∃ offset expected, e = .malformed offset expected := by
  rw [parse] at h
  dsimp only at h
  split at h
  next => cases h; exact ⟨_, _, rfl⟩
  next =>
    split at h
    next => cases h
    next => cases h; exact ⟨_, _, rfl⟩

theorem Raw.build_ne_malformed (r : Raw) (offset : Nat) (expected : Expected) :
    r.build ≠ .error (.malformed offset expected) := by
  have hop (name : String) : operatorNamed name ≠ .error (.malformed offset expected) := by
    intro h
    rw [operatorNamed] at h
    split at h <;> cases h
  have hjoin (x : Except ConstructionError Diagram) :
      x.mapError ReadError.construction ≠ .error (.malformed offset expected) := by
    intro h
    cases x <;> cases h
  induction r with
  | null => intro h; cases h
  | primary spiders habitats shaded => exact hjoin _
  | unary name d ih =>
      intro h
      rcases bind_eq_error h with h | ⟨op, _, h⟩
      · exact hop name h
      rcases bind_eq_error h with h | ⟨d, _, h⟩
      · exact ih h
      · exact hjoin _ h
  | binary name l r ihl ihr =>
      intro h
      rcases bind_eq_error h with h | ⟨op, _, h⟩
      · exact hop name h
      rcases bind_eq_error h with h | ⟨l, _, h⟩
      · exact ihl h
      rcases bind_eq_error h with h | ⟨r, _, h⟩
      · exact ihr h
      · exact hjoin _ h

namespace Diagram

theorem valid_of_compound {op : Operator} {ds : List Diagram} {d : Diagram}
    (h : compound op ds = .ok d) (hv : ∀ e ∈ ds, e.Valid) : d.Valid := by
  unfold compound at h
  split at h
  next e => cases h; exact hv e List.mem_cons_self
  next c l r =>
    cases h
    exact ⟨hv l List.mem_cons_self, hv r (List.mem_cons_of_mem _ List.mem_cons_self)⟩
  next => cases h

theorem valid_of_build {r : Raw} {d : Diagram} (h : r.build = .ok d) : d.Valid := by
  induction r generalizing d with
  | null => cases h; exact trivial
  | primary spiders habitats shaded =>
      rw [Raw.build] at h
      cases hp : Primary.ofParts spiders habitats shaded with
      | error => rw [hp] at h; cases h
      | ok p =>
          rw [hp] at h
          cases h
          exact Primary.valid_of_ofParts hp
  | unary name r ih =>
      obtain ⟨op, _, h⟩ := bind_eq_ok h
      obtain ⟨e, hr, h⟩ := bind_eq_ok h
      apply valid_of_compound (mapError_eq_ok h)
      exact List.forall_mem_singleton.2 (ih hr)
  | binary name l r ihl ihr =>
      obtain ⟨op, _, h⟩ := bind_eq_ok h
      obtain ⟨a, hl, h⟩ := bind_eq_ok h
      obtain ⟨b, hr, h⟩ := bind_eq_ok h
      apply valid_of_compound (mapError_eq_ok h)
      exact List.forall_mem_cons.2 ⟨ihl hl, List.forall_mem_singleton.2 (ihr hr)⟩

theorem read_eq_ok_iff {s : String} {d : Diagram} :
    read s = .ok d ↔ ∃ r : Raw, r.HasLayout s ∧ r.build = .ok d := by
  constructor
  · intro h
    obtain ⟨r, hr, hd⟩ := bind_eq_ok h
    exact ⟨r, Reader.hasLayout_of_parse hr, hd⟩
  · rintro ⟨r, hr, hd⟩
    rw [read, Reader.parse_of_hasLayout hr]
    exact hd

theorem valid_of_read {s : String} {d : Diagram} (h : read s = .ok d) : d.Valid := by
  obtain ⟨r, _, hd⟩ := read_eq_ok_iff.1 h
  exact valid_of_build hd

theorem read_malformed_iff {s : String} :
    (∃ offset expected, read s = .error (.malformed offset expected)) ↔
      ∀ r : Raw, ¬ r.HasLayout s := by
  constructor
  · rintro ⟨offset, expected, h⟩ r hr
    rw [read, Reader.parse_of_hasLayout hr] at h
    exact r.build_ne_malformed offset expected h
  · intro h
    cases hp : Reader.parse s with
    | ok r => exact absurd (Reader.hasLayout_of_parse hp) (h r)
    | error e =>
        obtain ⟨offset, expected, rfl⟩ := Reader.malformed_of_parse hp
        exact ⟨offset, expected, by rw [read, hp]; rfl⟩

/-- A text is parsed as a tree exactly if it is a layout of it, which it is of one tree at most; it
is read as a diagram exactly if that tree builds the diagram, and is malformed if there is no tree. -/
theorem read_layouts (s : String) :
    (∀ r : Raw, Reader.parse s = .ok r ↔ r.HasLayout s) ∧
      (∀ r r' : Raw, r.HasLayout s → r'.HasLayout s → r = r') ∧
      (∀ d, read s = .ok d ↔ ∃ r : Raw, r.HasLayout s ∧ r.build = .ok d) ∧
      ((∃ offset expected, read s = .error (.malformed offset expected)) ↔
        ∀ r : Raw, ¬ r.HasLayout s) ∧
      ∀ d, read s = .ok d → d.Valid :=
  ⟨fun _ => ⟨Reader.hasLayout_of_parse, Reader.parse_of_hasLayout⟩, fun _ _ => Raw.HasLayout.unique,
    fun _ => read_eq_ok_iff, read_malformed_iff, fun _ => valid_of_read⟩

theorem read_layouts_blanks :
    let s := "\n UnarySD\x7boperator=\"op ¬\" ,\targ1 = PrimarySD \x7bspiders=[\"s\"],habitats=[(\"s\",
      [([\"B\" , \"A\", \"B\"],[ ])])],sh_zones=[]\x7d\x7d\r\n"
    let d := negation (.primary ⟨.ofList [("s", .ofList [.ofLists ["A", "B"] []])], ∅⟩)
    (∃ r : Raw, r.HasLayout s ∧ r.build = .ok d ∧ ∀ r' : Raw, r'.HasLayout s → r' = r) ∧ d.Valid ∧
      ∀ r : Raw, ¬ r.HasLayout "PrimarySD \x7bspiders = [\"s\",], habitats = [], sh_zones = []\x7d" := by
  intro s d
  have h : read s = .ok d := by decide +kernel
  obtain ⟨_, hunique, hread, _, hvalid⟩ := read_layouts s
  obtain ⟨r, hr, hd⟩ := (hread d).1 h
  refine ⟨⟨r, hr, hd, fun r' hr' => hunique r' r hr' hr⟩, hvalid d h, ?_⟩
  apply (read_layouts _).2.2.2.1.1
  exact ⟨0, .word, by decide +kernel⟩

end Diagram

end SpiderDiagrams
