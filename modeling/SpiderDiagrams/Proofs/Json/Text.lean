import SpiderDiagrams.Json.Printer
import SpiderDiagrams.Json.Reader

namespace SpiderDiagrams.Json

/-- The part of a string that is read where a character was written. -/
def pieceOf (c : Char) : Piece :=
  if c < ' ' ∧ c ∉ ['\x08', '\t', '\n', '\x0c', '\r'] then .code c.toNat else .char c

theorem hexValue?_hexDigit : ∀ n < 16, Text.hexValue? (hexDigit n) = some n := by decide

theorem codeUnit?_hexDigit {n : Nat} (h : n < 256) :
    codeUnit? '0' '0' (hexDigit (n / 16)) (hexDigit (n % 16)) = some n := by
  have hz : Text.hexValue? '0' = some 0 := rfl
  have hd := hexValue?_hexDigit (n / 16) (by omega)
  have hm := hexValue?_hexDigit (n % 16) (by omega)
  simp only [codeUnit?, hz, hd, hm, Option.bind_eq_bind, Option.bind_some, Option.pure_def,
    Option.some.injEq]
  omega

theorem pieces_cons {c : Char} (hq : c ≠ '"') (hb : c ≠ '\\') (hc : ¬c < ' ') (cs : List Char) :
    pieces (c :: cs) = (pieces cs).map fun (ps, r) => (.char c :: ps, r) := by
  rw [pieces, if_neg hc]
  · exact hq
  · intro a b c d cs h
    simp_all
  · simp_all
  · simp_all
  · simp_all

theorem pieces_escapedChar (c : Char) (cs : List Char) :
    pieces (escapedChar c ++ cs) = (pieces cs).map fun (ps, r) => (pieceOf c :: ps, r) := by
  unfold escapedChar
  split
  -- the seven characters with an escape of their own
  iterate 7 rfl
  next hq hb _ _ _ _ _ =>
    split
    next h =>
      have hn : c.toNat < 32 := h
      have hu := codeUnit?_hexDigit (n := c.toNat) (by omega)
      have hp : pieceOf c = .code c.toNat := by simp_all [pieceOf]
      simp only [List.cons_append, List.nil_append, pieces, hu, hp]
    next h =>
      have hp : pieceOf c = .char c := if_neg fun hc => h hc.1
      rw [List.cons_append, List.nil_append, pieces_cons hq hb h, hp]

theorem pieces_flatMap_escapedChar (s rest : List Char) :
    pieces (s.flatMap escapedChar ++ '"' :: rest) = .ok (s.map pieceOf, rest) := by
  induction s with
  | nil => rfl
  | cons c s ih =>
      rw [List.flatMap_cons, List.append_assoc, pieces_escapedChar, ih]
      rfl

theorem assemble_code {n : Nat} (h : n < 0xD800) (ps : List Piece) :
    assemble (.code n :: ps) = (assemble ps).map (Char.ofNat n :: ·) := by
  have hl : isLeading n = false := by
    simp only [isLeading, Bool.and_eq_false_iff, decide_eq_false_iff_not]
    omega
  have ht : isTrailing n = false := by
    simp only [isTrailing, Bool.and_eq_false_iff, decide_eq_false_iff_not]
    omega
  rcases ps with _ | ⟨_ | _, ps⟩ <;> simp [assemble, hl, ht]

theorem assemble_map_pieceOf (s : List Char) : assemble (s.map pieceOf) = .ok s := by
  induction s with
  | nil => rfl
  | cons c s ih =>
      rw [List.map_cons, pieceOf]
      split
      next h =>
        have hn : c.toNat < 32 := h.1
        rw [assemble_code (by omega), ih, Char.ofNat_toNat]
        rfl
      next =>
        rw [assemble, ih]
        rfl

theorem stringReading_flatMap_escapedChar (s : String) (rest : List Char) :
    stringReading (s.toList.flatMap escapedChar ++ '"' :: rest) = (string s, some rest) := by
  rw [stringReading, pieces_flatMap_escapedChar]
  simp only [assemble_map_pieceOf, String.ofList_toList]

/-- No text of a value goes on with the given one: it is at its end, or a blank or a mark follows. -/
def Delimited (rest : List Char) : Prop :=
  ∀ c ∈ rest.head?, isBlank c = true ∨ c ∈ [',', ']', '\x7d']

theorem delimited_mark {c : Char} (h : c ∈ [',', ']', '\x7d']) (cs : List Char) :
    Delimited (c :: cs) := by
  intro c' hc
  cases hc
  exact .inr h

theorem delimited_append {bs : List Char} (h : ∀ b ∈ bs, isBlank b = true) {cs : List Char}
    (hc : Delimited cs) : Delimited (bs ++ cs) := by
  cases bs with
  | nil => exact hc
  | cons b bs =>
      intro c hb
      cases hb
      exact .inl (h b List.mem_cons_self)

theorem not_isDigit_of_delimited {c : Char} {cs : List Char} (h : Delimited (c :: cs)) :
    isDigit c = false ∧ c ≠ '.' ∧ c ≠ 'e' ∧ c ≠ 'E' := by
  have hc := h c rfl
  simp only [isBlank, Bool.or_eq_true, beq_iff_eq, List.mem_cons, List.not_mem_nil, or_false] at hc
  rcases hc with (((rfl | rfl) | rfl) | rfl) | rfl | rfl | rfl <;> decide

theorem takeWhile_dropWhile_digits {ds rest : List Char} (hd : ∀ c ∈ ds, isDigit c = true)
    (hr : Delimited rest) :
    (ds ++ rest).takeWhile isDigit = ds ∧ (ds ++ rest).dropWhile isDigit = rest := by
  rw [List.takeWhile_append_of_pos hd, List.dropWhile_append_of_pos hd]
  cases rest with
  | nil => simp
  | cons c cs => simp [(not_isDigit_of_delimited hr).1]

theorem afterWhole_of_delimited (whole : List Char) {rest : List Char} (h : Delimited rest) :
    afterWhole false whole rest = (integer whole false, some rest) := by
  cases rest with
  | nil => rfl
  | cons c cs =>
      obtain ⟨-, hp, he, hE⟩ := not_isDigit_of_delimited h
      rw [afterWhole, if_neg (by simp [he, hE])]
      exact hp

theorem integer_toDigits {n : Nat} (h : n < wordLimit) :
    integer (Nat.toDigits 10 n) false = .nat n := by
  have hv : (Nat.toDigits 10 n).foldl (fun n c => n * 10 + digitValue c) 0 = n := by
    have ht := Nat.ofDigitChars_ten_toDigits (n := n)
    rw [Nat.ofDigitChars_eq_foldl] at ht
    simpa only [Nat.mul_comm, digitValue] using ht
  simp [integer, hv, h, nat]

theorem exists_toDigits_eq_cons (n : Nat) :
    ∃ c cs, Nat.toDigits 10 n = c :: cs ∧ isDigit c = true := by
  obtain ⟨c, cs, hc⟩ := List.exists_cons_of_ne_nil (Nat.toDigits_ne_nil (n := n) (b := 10))
  have hm : c ∈ Nat.toDigits 10 n := hc ▸ List.mem_cons_self
  exact ⟨c, cs, hc, Nat.isDigit_of_mem_toDigits (by decide) (by decide) hm⟩

theorem head?_toDigits_ne_zero {n : Nat} (h : 0 < n) : (Nat.toDigits 10 n).head? ≠ some '0' := by
  induction n using Nat.strongRecOn with
  | ind n ih =>
      rw [Nat.toDigits_eq_if (by decide)]
      split
      next hn =>
        rw [List.head?_cons, Ne, Option.some.injEq, Nat.digitChar_eq_zero]
        omega
      next hn =>
        have hr := ih (n / 10) (by omega) (by omega)
        obtain ⟨c, cs, hc, -⟩ := exists_toDigits_eq_cons (n / 10)
        rw [hc] at hr ⊢
        exact hr

theorem not_leading_zero (n : Nat) :
    ¬((Nat.toDigits 10 n).head? = some '0' ∧ 1 < (Nat.toDigits 10 n).length) := by
  rintro ⟨h, hl⟩
  rcases Nat.eq_zero_or_pos n with rfl | hn
  · simp at hl
  · exact head?_toDigits_ne_zero hn h

theorem numberReading_toDigits {n : Nat} (h : n < wordLimit) {rest : List Char}
    (hr : Delimited rest) :
    numberReading false (Nat.toDigits 10 n ++ rest) = (.nat n, some rest) := by
  have hd : ∀ c ∈ Nat.toDigits 10 n, isDigit c = true := fun c hc =>
    Nat.isDigit_of_mem_toDigits (by decide) (by decide) hc
  obtain ⟨ht, hw⟩ := takeWhile_dropWhile_digits hd hr
  rw [numberReading, digitsReading, ht]
  split
  next hn => exact absurd hn Nat.toDigits_ne_nil
  next => rw [hw, if_neg (not_leading_zero n), afterWhole_of_delimited _ hr, integer_toDigits h]

theorem ne_of_isDigit {c c' : Char} (h : isDigit c = true) (h' : isDigit c' = false) : c ≠ c' := by
  rintro rfl
  rw [h] at h'
  cases h'

/-- The values that are read as they are written: numbers are natural and fit into a word, keys are
strings and nothing is broken off. -/
inductive Plain : Json → Prop
  | null : Plain .null
  | bool (b : Bool) : Plain (.bool b)
  | nat {n : Nat} (h : n < wordLimit) : Plain (.nat n)
  | string (s : String) : Plain (.string s)
  | list {items : List Json} (h : ∀ j ∈ items, Plain j) : Plain (.list items)
  | record {members : List (String × Json)} (h : ∀ m ∈ members, Plain m.2) : Plain (.record members)

structure Layout.Blank (l : Layout) : Prop where
  colon : ∃ bs, l.colon = ':' :: bs ∧ ∀ b ∈ bs, isBlank b = true
  lineBreak : ∀ depth, ∀ b ∈ l.lineBreak depth, isBlank b = true

theorem Layout.blank_compact : Layout.compact.Blank where
  colon := ⟨[], rfl, by simp⟩
  lineBreak := by simp [Layout.compact]

theorem Layout.blank_pretty : Layout.pretty.Blank where
  colon := ⟨[' '], rfl, by simp [isBlank]⟩
  lineBreak := by simp [Layout.pretty, isBlank]

theorem skipBlanks_append {bs : List Char} (h : ∀ b ∈ bs, isBlank b = true) (cs : List Char) :
    skipBlanks (bs ++ cs) = skipBlanks cs :=
  List.dropWhile_append_of_pos h

theorem skipBlanks_cons {c : Char} (h : isBlank c = false) (cs : List Char) :
    skipBlanks (c :: cs) = c :: cs :=
  List.dropWhile_cons_of_neg (by simp [h])

theorem value_append {bs : List Char} (h : ∀ b ∈ bs, isBlank b = true) (n : Nat) (cs : List Char) :
    value n (bs ++ cs) = value n cs := by
  cases n with
  | zero => rfl
  | succ n => rw [value, value, skipBlanks_append h]

variable {l : Layout}

theorem exists_chars_eq_cons (l : Layout) (depth : Nat) {j : Json} (h : j.Plain) :
    ∃ c cs, chars l depth j = c :: cs ∧ isBlank c = false ∧ c ≠ ']' := by
  cases h with
  | null => exact ⟨_, _, rfl, by decide⟩
  | bool b => cases b <;> exact ⟨_, _, rfl, by decide⟩
  | @nat n h =>
      obtain ⟨c, cs, hc, hd⟩ := exists_toDigits_eq_cons n
      refine ⟨c, cs, hc, ?_, ne_of_isDigit hd (by decide)⟩
      simp only [isBlank, Bool.or_eq_false_iff, beq_eq_false_iff_ne]
      refine ⟨⟨⟨?_, ?_⟩, ?_⟩, ?_⟩ <;> exact ne_of_isDigit hd (by decide)
  | string s => exact ⟨_, _, rfl, by decide⟩
  | @list items h => cases items <;> exact ⟨_, _, rfl, by decide⟩
  | @record members h => cases members <;> exact ⟨_, _, rfl, by decide⟩

theorem skipBlanks_chars (depth : Nat) {j : Json} (h : j.Plain) (rest : List Char) :
    skipBlanks (chars l depth j ++ rest) = chars l depth j ++ rest := by
  obtain ⟨c, cs, hc, hb, -⟩ := exists_chars_eq_cons l depth h
  rw [hc, List.cons_append, skipBlanks_cons hb]

theorem value_stringChars (n : Nat) (s : String) (rest : List Char) :
    value (n + 1) (stringChars s ++ rest) = (string s, some rest) := by
  have hc : stringChars s ++ rest = '"' :: (s.toList.flatMap escapedChar ++ '"' :: rest) := by
    simp [stringChars]
  rw [hc, value]
  exact stringReading_flatMap_escapedChar s rest

theorem value_toDigits (n : Nat) {k : Nat} (hk : k < wordLimit) {rest : List Char}
    (hr : Delimited rest) : value (n + 1) (Nat.toDigits 10 k ++ rest) = (.nat k, some rest) := by
  obtain ⟨c, cs, hc, hd⟩ := exists_toDigits_eq_cons k
  have hne (c' : Char) (h' : isDigit c' = false) : c ≠ c' := ne_of_isDigit hd h'
  have hs : skipBlanks (Nat.toDigits 10 k ++ rest) = Nat.toDigits 10 k ++ rest :=
    skipBlanks_chars (l := .compact) 0 (.nat hk) rest
  have hn := numberReading_toDigits hk hr
  rw [value, hs]
  rw [hc, List.cons_append] at hn ⊢
  simp only [hne 'n' rfl, hne 't' rfl, hne 'f' rfl, hne '"' rfl, hne '[' rfl, hne '\x7b' rfl,
    hne '-' rfl, hd, if_false, if_true]
  exact hn

/-- The value is read from its text at any depth, whatever follows it. -/
def ReadsBack (l : Layout) (j : Json) : Prop :=
  ∀ depth n rest, Delimited rest → 2 * (chars l depth j ++ rest).length ≤ n →
    value n (chars l depth j ++ rest) = (j, some rest)

theorem exists_fuel {j : Json} (h : j.Plain) {depth n : Nat} {rest : List Char}
    (hn : 2 * (chars l depth j ++ rest).length ≤ n) : ∃ m, n = m + 2 := by
  obtain ⟨c, cs, hc, -⟩ := exists_chars_eq_cons l depth h
  rw [hc, List.cons_append, List.length_cons] at hn
  exact ⟨n - 2, by omega⟩

theorem delimited_itemChars {bs : List Char} (hb : ∀ b ∈ bs, isBlank b = true) (depth : Nat)
    (items : List Json) (rest : List Char) :
    Delimited (itemChars l depth items ++ (bs ++ ']' :: rest)) := by
  cases items with
  | nil => exact delimited_append hb (delimited_mark (by decide) _)
  | cons j items =>
      rw [itemChars]
      exact delimited_mark (by decide) _

theorem moreItems_itemChars (hl : l.Blank) {items : List Json} (hp : ∀ j ∈ items, j.Plain)
    (hs : ∀ j ∈ items, ReadsBack l j) (depth : Nat) {bs : List Char}
    (hb : ∀ b ∈ bs, isBlank b = true) (rest : List Char) (j : Json) {n : Nat}
    (hn : 2 * (itemChars l depth items ++ (bs ++ ']' :: rest)).length ≤ n) :
    moreItems n (j, some (itemChars l depth items ++ (bs ++ ']' :: rest))) =
      (j :: items, some rest) := by
  induction items generalizing j n with
  | nil =>
      obtain ⟨m, rfl⟩ : ∃ m, n = m + 1 := ⟨n - 1, by simp at hn; omega⟩
      rw [itemChars, List.nil_append, moreItems, skipBlanks_append hb]
      rfl
  | cons k items ih =>
      rw [List.forall_mem_cons] at hp hs
      let after := itemChars l depth items ++ (bs ++ ']' :: rest)
      have ht : itemChars l depth (k :: items) ++ (bs ++ ']' :: rest) =
          ',' :: (l.lineBreak depth ++ (chars l depth k ++ after)) := by
        simp [itemChars, after]
      rw [ht] at hn ⊢
      obtain ⟨m, rfl⟩ : ∃ m, n = m + 1 := ⟨n - 1, by simp at hn; omega⟩
      have hv : value m (chars l depth k ++ after) = (k, some after) :=
        hs.1 depth m after (delimited_itemChars hb depth items rest) (by simp at hn ⊢; omega)
      have hm : moreItems m (k, some after) = (k :: items, some rest) :=
        ih hp.2 hs.2 k (by simp [after] at hn ⊢; omega)
      obtain ⟨c, cs, hc, -, hce⟩ := exists_chars_eq_cons l depth hp.1
      rw [moreItems, skipBlanks_cons (by decide)]
      simp only [skipBlanks_append (hl.lineBreak depth), skipBlanks_chars depth hp.1]
      rw [hc, List.cons_append] at hv ⊢
      split
      next h => exact absurd (List.cons.inj h).1 hce
      next => rw [hv, hm]

theorem readsBack_list (hl : l.Blank) {items : List Json} (hp : ∀ j ∈ items, j.Plain)
    (hs : ∀ j ∈ items, ReadsBack l j) : ReadsBack l (.list items) := by
  intro depth n rest _ hn
  obtain ⟨m, rfl⟩ := exists_fuel (.list hp) hn
  cases items with
  | nil => rfl
  | cons j items =>
      rw [List.forall_mem_cons] at hp hs
      let after := itemChars l (depth + 1) items ++ (l.lineBreak depth ++ ']' :: rest)
      have ht : chars l depth (.list (j :: items)) ++ rest =
          '[' :: (l.lineBreak (depth + 1) ++ (chars l (depth + 1) j ++ after)) := by
        simp [chars, after]
      rw [ht] at hn ⊢
      have hv : value m (chars l (depth + 1) j ++ after) = (j, some after) :=
        hs.1 (depth + 1) m after (delimited_itemChars (hl.lineBreak depth) (depth + 1) items rest)
          (by simp at hn ⊢; omega)
      have hm : moreItems m (j, some after) = (j :: items, some rest) :=
        moreItems_itemChars hl hp.2 hs.2 (depth + 1) (hl.lineBreak depth) rest j
          (by simp [after] at hn ⊢; omega)
      have hf : firstItem (m + 1) (l.lineBreak (depth + 1) ++ (chars l (depth + 1) j ++ after)) =
          (j :: items, some rest) := by
        obtain ⟨c, cs, hc, -, hce⟩ := exists_chars_eq_cons l (depth + 1) hp.1
        rw [firstItem, skipBlanks_append (hl.lineBreak (depth + 1)), skipBlanks_chars _ hp.1]
        rw [hc, List.cons_append] at hv ⊢
        split
        next h => cases h
        next h => exact absurd (List.cons.inj h).1 hce
        next => rw [hv, hm]
      rw [value, skipBlanks_cons (by decide)]
      simp [hf]

def keyed (members : List (String × Json)) : List (Json × Json) :=
  members.map fun (k, v) => (string k, v)

theorem delimited_membersChars {bs : List Char} (hb : ∀ b ∈ bs, isBlank b = true) (depth : Nat)
    (members : List (Json × Json)) (rest : List Char) :
    Delimited (membersChars l depth members ++ (bs ++ '\x7d' :: rest)) := by
  cases members with
  | nil => exact delimited_append hb (delimited_mark (by decide) _)
  | cons m members =>
      rw [membersChars]
      exact delimited_mark (by decide) _

theorem exists_memberChars_eq_cons (l : Layout) (depth : Nat) (k : String) (v : Json)
    (after : List Char) : ∃ cs, memberChars l depth (string k, v) ++ after = '"' :: cs :=
  ⟨_, by rw [memberChars, chars, stringChars]; rfl⟩

theorem member_memberChars (hl : l.Blank) {k : String} {v : Json} (hs : ReadsBack l v) (depth : Nat)
    {after : List Char} (ha : Delimited after) {n : Nat}
    (hn : 2 * (memberChars l depth (string k, v) ++ after).length ≤ n + 1) :
    member (n + 1) (memberChars l depth (string k, v) ++ after) =
      moreMembers n (string k) (v, some after) := by
  obtain ⟨bs, hc, hbs⟩ := hl.colon
  have ht : memberChars l depth (string k, v) ++ after =
      stringChars k ++ ':' :: (bs ++ (chars l depth v ++ after)) := by
    simp [memberChars, chars, hc]
  rw [ht] at hn ⊢
  obtain ⟨m, rfl⟩ : ∃ m, n = m + 1 := ⟨n - 1, by simp [stringChars] at hn; omega⟩
  have hk := value_stringChars m k (':' :: (bs ++ (chars l depth v ++ after)))
  have hv : value (m + 1) (bs ++ (chars l depth v ++ after)) = (v, some after) := by
    rw [value_append hbs]
    exact hs depth (m + 1) after ha (by simp [stringChars] at hn ⊢; omega)
  rw [stringChars, List.append_assoc, List.cons_append] at hk ⊢
  rw [member, hk]
  simp only [skipBlanks_cons (c := ':') (by decide), hv]

theorem moreMembers_membersChars (hl : l.Blank) {members : List (String × Json)}
    (hs : ∀ m ∈ members, ReadsBack l m.2) (depth : Nat) {bs : List Char}
    (hb : ∀ b ∈ bs, isBlank b = true) (rest : List Char) (k v : Json) {n : Nat}
    (hn : 2 * (membersChars l depth (keyed members) ++ (bs ++ '\x7d' :: rest)).length ≤ n) :
    moreMembers n k (v, some (membersChars l depth (keyed members) ++ (bs ++ '\x7d' :: rest))) =
      ((k, v) :: keyed members, some rest) := by
  induction members generalizing k v n with
  | nil =>
      obtain ⟨m, rfl⟩ : ∃ m, n = m + 1 := ⟨n - 1, by simp at hn; omega⟩
      rw [keyed, List.map_nil, membersChars, List.nil_append, moreMembers, skipBlanks_append hb]
      rfl
  | cons m members ih =>
      rw [List.forall_mem_cons] at hs
      let after := membersChars l depth (keyed members) ++ (bs ++ '\x7d' :: rest)
      have ht : membersChars l depth (keyed (m :: members)) ++ (bs ++ '\x7d' :: rest) =
          ',' :: (l.lineBreak depth ++ (memberChars l depth (string m.1, m.2) ++ after)) := by
        simp [keyed, membersChars, after]
      rw [ht] at hn ⊢
      obtain ⟨cs, hc⟩ := exists_memberChars_eq_cons l depth m.1 m.2 after
      obtain ⟨i, rfl⟩ : ∃ i, n = i + 2 := ⟨n - 2, by simp at hn; omega⟩
      have hd : Delimited after := delimited_membersChars hb depth (keyed members) rest
      have hm : member (i + 1) (memberChars l depth (string m.1, m.2) ++ after) =
          (keyed (m :: members), some rest) := by
        rw [member_memberChars hl hs.1 depth hd (by simp at hn ⊢; omega)]
        exact ih hs.2 (string m.1) m.2
          (by simp [memberChars, chars, stringChars, after] at hn ⊢; omega)
      rw [moreMembers, skipBlanks_cons (by decide)]
      rw [hc] at hm ⊢
      simp only [skipBlanks_append (hl.lineBreak depth), skipBlanks_cons (c := '"') (by decide)]
      exact congrArg (fun r => ((k, v) :: r.1, r.2)) hm

theorem readsBack_record (hl : l.Blank) {members : List (String × Json)}
    (hp : ∀ m ∈ members, m.2.Plain) (hs : ∀ m ∈ members, ReadsBack l m.2) :
    ReadsBack l (.record members) := by
  intro depth n rest _ hn
  obtain ⟨i, rfl⟩ := exists_fuel (.record hp) hn
  cases members with
  | nil => rfl
  | cons m members =>
      rw [List.forall_mem_cons] at hs
      let after :=
        membersChars l (depth + 1) (keyed members) ++ (l.lineBreak depth ++ '\x7d' :: rest)
      have ht : chars l depth (.record (m :: members)) ++ rest = '\x7b' ::
          (l.lineBreak (depth + 1) ++ (memberChars l (depth + 1) (string m.1, m.2) ++ after)) := by
        simp [record, chars, keyed, after]
      rw [ht] at hn ⊢
      obtain ⟨cs, hc⟩ := exists_memberChars_eq_cons l (depth + 1) m.1 m.2 after
      obtain ⟨i, rfl⟩ : ∃ k, i = k + 1 :=
        ⟨i - 1, by simp [memberChars, chars, stringChars] at hn; omega⟩
      have hd : Delimited after :=
        delimited_membersChars (hl.lineBreak depth) (depth + 1) (keyed members) rest
      have hm : member (i + 1) (memberChars l (depth + 1) (string m.1, m.2) ++ after) =
          (keyed (m :: members), some rest) := by
        rw [member_memberChars hl hs.1 (depth + 1) hd (by simp at hn ⊢; omega)]
        exact moreMembers_membersChars hl hs.2 (depth + 1) (hl.lineBreak depth) rest (string m.1) m.2
          (by simp [memberChars, chars, stringChars, after] at hn ⊢; omega)
      rw [hc] at hm ⊢
      have hf : firstMember (i + 2) (l.lineBreak (depth + 1) ++ '"' :: cs) =
          (keyed (m :: members), some rest) := by
        rw [firstMember, skipBlanks_append (hl.lineBreak (depth + 1)), skipBlanks_cons (by decide)]
        exact hm
      rw [value, skipBlanks_cons (by decide)]
      simp [hf, record, keyed]

theorem readsBack_of_plain (hl : l.Blank) {j : Json} (h : j.Plain) : ReadsBack l j := by
  induction h with
  | null =>
      intro depth n rest _ hn
      obtain ⟨m, rfl⟩ := exists_fuel .null hn
      simp [chars, value, skipBlanks, isBlank, ident]
  | bool b =>
      intro depth n rest _ hn
      obtain ⟨m, rfl⟩ := exists_fuel (.bool b) hn
      cases b <;> simp [chars, value, skipBlanks, isBlank, ident]
  | nat hk =>
      intro depth n rest hr hn
      obtain ⟨m, rfl⟩ := exists_fuel (.nat hk) hn
      exact value_toDigits (m + 1) hk hr
  | string s =>
      intro depth n rest _ hn
      obtain ⟨m, rfl⟩ := exists_fuel (.string s) hn
      exact value_stringChars (m + 1) s rest
  | list hp ih => exact readsBack_list hl hp ih
  | record hp ih => exact readsBack_record hl hp ih

theorem read_chars (hl : l.Blank) {j : Json} (h : j.Plain) {bs : List Char}
    (hb : ∀ b ∈ bs, isBlank b = true) :
    read (String.ofList (chars l 0 j ++ bs)) = (j, false) := by
  have hd : Delimited bs := by simpa using delimited_append hb (by simp [Delimited] : Delimited [])
  have hv := readsBack_of_plain hl h 0 (2 * (chars l 0 j ++ bs).length + 2) bs hd (by simp)
  have hs : skipBlanks bs = [] := by simpa [skipBlanks] using skipBlanks_append hb []
  simp only [read, String.toList_ofList, hv, hs, List.isEmpty_nil, Bool.not_true]

theorem read_compact {j : Json} (h : j.Plain) : read j.compact = (j, false) := by
  have hr := read_chars Layout.blank_compact h (List.forall_mem_nil _)
  rwa [List.append_nil] at hr

theorem read_pretty {j : Json} (h : j.Plain) : read j.pretty = (j, false) := by
  have hr := read_chars Layout.blank_pretty h (List.forall_mem_nil _)
  rwa [List.append_nil] at hr

theorem read_pretty_line {j : Json} (h : j.Plain) : read (j.pretty ++ "\n") = (j, false) := by
  have hb : ∀ b ∈ ['\n'], isBlank b = true := fun b hb => by rw [List.mem_singleton.1 hb]; rfl
  have hr := read_chars Layout.blank_pretty h hb
  rwa [String.ofList_append] at hr

end SpiderDiagrams.Json
