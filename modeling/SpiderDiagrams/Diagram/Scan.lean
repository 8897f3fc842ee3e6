import SpiderDiagrams.Token

namespace SpiderDiagrams

def isBlank (c : Char) : Bool := c == ' ' || c == '\t' || c == '\r' || c == '\n'

namespace Token

def untilQuote : List Char → Option (List Char × List Char)
  | [] => none
  | c :: cs => if c = '"' then some ([], cs) else (untilQuote cs).map fun (s, r) => (c :: s, r)

def first? : List Char → Option (Token × List Char)
  | [] => none
  | c :: cs =>
    if c = '"' then (untilQuote cs).map fun (s, r) => (quoted (String.ofList s), r)
    else match Mark.ofChar? c with
    | some m => some (mark m, cs)
    | none => (Word.all.find? (·.spelling.toList.isPrefixOf (c :: cs))).map fun w =>
        (word w, (c :: cs).drop w.spelling.toList.length)

theorem length_untilQuote {cs s r : List Char} (h : untilQuote cs = some (s, r)) :
    r.length < cs.length := by
  induction cs generalizing s r with
  | nil => simp [untilQuote] at h
  | cons c cs ih =>
    rw [untilQuote] at h
    split at h
    · grind
    · obtain ⟨⟨s', r'⟩, h', he⟩ := Option.map_eq_some_iff.1 h
      have := ih h'
      grind

theorem length_first? {cs r : List Char} {t : Token} (h : first? cs = some (t, r)) :
    r.length < cs.length := by
  cases cs with
  | nil => simp [first?] at h
  | cons c cs =>
    rw [first?] at h
    split at h
    · obtain ⟨⟨s, r'⟩, h', he⟩ := Option.map_eq_some_iff.1 h
      have := length_untilQuote h'
      grind
    · split at h
      · grind
      · obtain ⟨w, _, he⟩ := Option.map_eq_some_iff.1 h
        have hr : (c :: cs).drop w.spelling.toList.length = r := (Prod.mk.inj he).2
        rw [← hr, List.length_drop]
        have : 0 < w.spelling.toList.length := by cases w <;> decide
        simp only [List.length_cons]
        omega

end Token

inductive ScanEnd where
  | finished
  | unclosed
  | stray
deriving DecidableEq

structure Scan where
  tokens : List (Nat × Token)
  endOffset : Nat
  reason : ScanEnd

/-- Scans a text that begins at the given offset. -/
def scanFrom (offset : Nat) (cs : List Char) : Scan :=
  match cs with
  | [] => ⟨[], offset, .finished⟩
  | c :: cs =>
    if isBlank c then scanFrom (offset + c.utf8Size) cs
    else match h : Token.first? (c :: cs) with
    | some (t, rest) =>
      have := Token.length_first? h
      let s := scanFrom (offset + t.spelling.utf8ByteSize) rest
      { s with tokens := (offset, t) :: s.tokens }
    | none => ⟨[], offset, if c = '"' then .unclosed else .stray⟩
termination_by cs.length
decreasing_by
  · exact Nat.lt_succ_self _
  · assumption

def scan (s : String) : Scan := scanFrom 0 s.toList

end SpiderDiagrams
