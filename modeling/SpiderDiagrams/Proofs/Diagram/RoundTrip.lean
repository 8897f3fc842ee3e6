import SpiderDiagrams.Proofs.Diagram.Acceptance

namespace SpiderDiagrams

namespace Token

theorem mem_intercalate {t sep : Token} {ws : List (List Token)} (h : t ∈ [sep].intercalate ws) :
    t = sep ∨ ∃ w ∈ ws, t ∈ w := by
  induction ws with
  | nil => simp at h
  | cons w ws ih =>
      cases ws with
      | nil =>
          rw [List.intercalate_singleton] at h
          exact .inr ⟨w, List.mem_cons_self, h⟩
      | cons v ws =>
          rw [List.intercalate_cons_cons, List.mem_append, List.mem_append, List.mem_singleton] at h
          rcases h with (h | h) | h
          · exact .inr ⟨w, List.mem_cons_self, h⟩
          · exact .inl h
          · rcases ih h with he | ⟨u, hu, ht⟩
            · exact .inl he
            · exact .inr ⟨u, List.mem_cons_of_mem _ hu, ht⟩

theorem clean_bracketed {ws : List (List Token)} (h : ∀ w ∈ ws, ∀ t ∈ w, t.Clean) :
    ∀ t ∈ bracketed ws, t.Clean := by
  have hc : ∀ t ∈ [mark .comma].intercalate ws, t.Clean := by
    intro t ht
    rcases mem_intercalate ht with rfl | ⟨w, hw, htw⟩
    · exact trivial
    · exact h w hw t htw
  simp only [bracketed, List.cons_append, List.forall_mem_cons, List.forall_mem_append]
  exact ⟨trivial, hc, trivial, by simp⟩

theorem clean_names {s : NameSet} (h : ∀ n ∈ s, IsName n) : ∀ t ∈ names s, t.Clean := by
  apply clean_bracketed
  intro w hw t ht
  obtain ⟨n, hn, rfl⟩ := List.mem_map.1 hw
  rw [List.mem_singleton.1 ht]
  exact (h n hn).2.1

end Token

theorem Zone.clean_tokens {z : Zone} (h : ∀ c, c ∈ z.inside ∨ c ∈ z.outside → IsName c) :
    ∀ t ∈ z.tokens, t.Clean := by
  have hi := Token.clean_names (s := z.inside) fun c hc => h c (.inl hc)
  have ho := Token.clean_names (s := z.outside) fun c hc => h c (.inr hc)
  simp only [Zone.tokens, List.cons_append, List.forall_mem_cons, List.forall_mem_append]
  exact ⟨trivial, ⟨hi, trivial, ho⟩, trivial, by simp⟩

theorem Region.clean_tokens {r : Region} (h : ∀ z ∈ r, ∀ c, c ∈ z.inside ∨ c ∈ z.outside → IsName c) :
    ∀ t ∈ Region.tokens r, t.Clean := by
  apply Token.clean_bracketed
  intro w hw
  obtain ⟨z, hz, rfl⟩ := List.mem_map.1 hw
  exact Zone.clean_tokens (h z hz)

theorem Primary.clean_tokens {p : Primary} (h : p.Valid) : ∀ t ∈ p.tokens, t.Clean := by
  have hs := Token.clean_names fun s hs => h.isName_spider hs
  have hh : ∀ t ∈ Token.bracketed (p.habitats.entries.map fun e =>
      [.mark .openParen, .quoted e.1, .mark .comma] ++ Region.tokens e.2 ++ [.mark .closeParen]),
      t.Clean := by
    apply Token.clean_bracketed
    intro w hw
    obtain ⟨e, he, rfl⟩ := List.mem_map.1 hw
    have hn : IsName e.1 := h.isName_spider (List.mem_map_of_mem he)
    have hr := Region.clean_tokens fun z hz c hc =>
      h.isName_contour (mem_zones_of_habitat (s := e.1) he hz) hc
    simp only [List.cons_append, List.nil_append, List.forall_mem_cons, List.forall_mem_append]
    exact ⟨trivial, hn.2.1, trivial, hr, trivial, by simp⟩
  have hz := Region.clean_tokens fun z hz c hc => h.isName_contour (mem_zones_of_shaded hz) hc
  simp only [Primary.tokens, List.cons_append, List.nil_append, List.forall_mem_cons,
    List.forall_mem_append]
  exact ⟨trivial, trivial, trivial, trivial, ⟨⟨⟨⟨hs, trivial, trivial, trivial, by simp⟩, hh⟩, trivial,
    trivial, trivial, by simp⟩, hz⟩, trivial, by simp⟩

namespace Diagram

theorem clean_openingTokens (w : Word) (op : Operator) : ∀ t ∈ openingTokens w op, t.Clean := by
  have hop : '"' ∉ op.name.toList := by
    cases op with
    | negation => decide
    | binary c => cases c <;> decide
  simp only [openingTokens, List.forall_mem_cons]
  exact ⟨trivial, trivial, trivial, trivial, hop, trivial, trivial, trivial, by simp⟩

theorem clean_tokens {d : Diagram} (h : d.Valid) : ∀ t ∈ d.tokens, t.Clean := by
  induction d with
  | null =>
      simp only [tokens, tokensOnto, List.forall_mem_cons]
      exact ⟨trivial, trivial, trivial, by simp⟩
  | primary p =>
      rw [tokens, tokensOnto, List.append_nil]
      exact p.clean_tokens h
  | negation d ih =>
      rw [tokens, tokensOnto, tokensOnto_eq]
      simp only [List.forall_mem_append, List.forall_mem_cons]
      exact ⟨clean_openingTokens _ _, ih h, trivial, by simp⟩
  | binary c l r ihl ihr =>
      rw [tokens, tokensOnto, tokensOnto_eq, tokensOnto_eq]
      simp only [List.forall_mem_append, List.forall_mem_cons]
      exact ⟨clean_openingTokens _ _, ihl h.1, trivial, trivial, trivial, ihr h.2, trivial, by simp⟩

def raw : Diagram → Raw
  | null => .null
  | primary p =>
    .primary p.spiders.toList (p.habitats.entries.map fun e => (e.1, e.2.toList)) p.shaded.toList
  | negation d => .unary Operator.negation.name d.raw
  | binary c l r => .binary (Operator.binary c).name l.raw r.raw

theorem zones_written (r : Region) :
    List.Forall₂ Zone.Written r.toList (r.toList.map Zone.tokens) := by
  rw [List.forall₂_map_right_iff]
  apply List.forall₂_same.2
  intro z hz
  refine ⟨z.inside.toList, z.outside.toList, ?_, rfl⟩
  rw [Zone.ofLists, SortedSet.ofList_toList, SortedSet.ofList_toList]

theorem raw_written (d : Diagram) : d.raw.Written d.tokens := by
  induction d with
  | null => exact .null
  | primary p =>
      rw [tokens, tokensOnto, List.append_nil]
      refine .primary ?_ (zones_written p.shaded)
      rw [List.forall₂_map_left_iff, List.forall₂_map_right_iff]
      exact List.forall₂_same.2 fun e _ => ⟨_, zones_written e.2, rfl⟩
  | negation d ih =>
      rw [tokens, tokensOnto, tokensOnto_eq, ← List.append_assoc]
      exact .unary ih
  | binary c l r ihl ihr =>
      have h : Raw.Written (.binary (Operator.binary c).name l.raw r.raw) _ := .binary ihl ihr
      rw [List.append_assoc, List.append_assoc, List.append_assoc] at h
      rw [tokens, tokensOnto, tokensOnto_eq, tokensOnto_eq]
      exact h

theorem build_raw {d : Diagram} (h : d.Valid) : d.raw.build = .ok d := by
  induction d with
  | null => rfl
  | primary p =>
      rw [raw, Raw.build, Primary.ofParts_parts h]
      rfl
  | negation d ih =>
      rw [raw, Raw.build, ih h, Raw.operatorNamed, Operator.ofName?_name]
      rfl
  | binary c l r ihl ihr =>
      rw [raw, Raw.build, ihl h.1, ihr h.2, Raw.operatorNamed, Operator.ofName?_name]
      rfl

theorem parse_text {d : Diagram} (h : d.Valid) : Reader.parse d.text = .ok d.raw :=
  Reader.parse_of_hasLayout ⟨d.tokens, d.raw_written, clean_tokens h, layout_text d.tokens⟩

theorem read_text {d : Diagram} (h : d.Valid) : read d.text = .ok d := by
  rw [read, parse_text h]
  exact build_raw h

/-- A valid diagram is read back from its text, and so no other has its text; only valid diagrams
are ever read. -/
theorem text_faithful :
    (∀ d : Diagram, d.Valid → read d.text = .ok d) ∧
      (∀ d e : Diagram, d.Valid → e.Valid → (d.text = e.text ↔ d = e)) ∧
      ∀ (s : String) (d : Diagram), read s = .ok d → d.Valid := by
  refine ⟨fun d => read_text, ?_, fun s d => valid_of_read⟩
  intro d e hd he
  refine ⟨?_, congrArg text⟩
  intro h
  have hr := read_text hd
  rw [h, read_text he] at hr
  exact (Except.ok.inj hr).symm

def manyScripts : Diagram :=
  .negation (.binary .equivalence .null (.primary
    ⟨.ofList [("BinarySD \x7b", .ofList [.ofLists ["A, [B]"] ["été ∪ 集"]])],
      .ofList [.ofLists ["été ∪ 集"] ["A, [B]"]]⟩))

theorem text_faithful_manyScripts :
    (manyScripts.Valid ∧ read manyScripts.text = .ok manyScripts) ∧
      (manyScripts.text = null.text ↔ manyScripts = null) :=
  ⟨⟨by decide, text_faithful.1 manyScripts (by decide)⟩,
    text_faithful.2.1 manyScripts null (by decide) trivial⟩

end Diagram

end SpiderDiagrams
