import SchemaDiagram.Proofs.Script.Word
import SchemaDiagram.Proofs.Tokens.Insertion

set_option autoImplicit false

namespace SchemaDiagram.Sql
open Unicode Text

def isSeparator (c : Char) : Bool := [' ', '\n', '(', ')', ',', ';'].contains c

inductive Passage where
  | letter (c : Char) (isLetter : Script.isAsciiStart c = true)
  | separator (c : Char) (isSeparator : isSeparator c = true)
  | lineComment (y : Text) (oneLine : ∀ c ∈ y, Token.isLineBreak c = false)
  | blockComment (x : Text) (unmarked : ∀ c ∈ x, c ≠ '*' ∧ c ≠ '/')
      (noLineMark : hasPair '-' '-' x = false)

namespace Passage

def text : Passage → Text
  | letter c _ => [c]
  | separator c _ => [c]
  | lineComment y _ => '-' :: '-' :: (y ++ ['\n'])
  | blockComment x _ _ => '/' :: '*' :: (x ++ ['*', '/'])

def kept : Passage → Text
  | letter c _ => [c]
  | separator c _ => [c]
  | lineComment _ _ => ['\n']
  | blockComment _ _ _ => []

def withoutLine : Passage → Text
  | lineComment _ _ => ['\n']
  | p => p.text

end Passage

theorem stripLines_of_ne {c : Char} (hc : c ≠ '-') (s : Text) :
    stripLines false (c :: s) = c :: stripLines false s := by
  rw [stripLines]
  rintro r rfl -
  exact hc rfl

theorem stripLines_line {y : Text} (hy : ∀ c ∈ y, c ≠ '\n') (s : Text) :
    stripLines true (y ++ '\n' :: s) = '\n' :: stripLines false s := by
  induction y with
  | nil => simp [stripLines]
  | cons c y ih =>
    obtain ⟨hc, hy⟩ := List.forall_mem_cons.1 hy
    rw [List.cons_append, stripLines, if_neg hc, ih hy]

/-- A text without the mark of a line comment stays, in front of anything but a hyphen. -/
theorem stripLines_append {x : Text} (hx : hasPair '-' '-' x = false) {c : Char} (hc : c ≠ '-')
    (s : Text) : stripLines false (x ++ c :: s) = x ++ stripLines false (c :: s) := by
  have hstep : ∀ d e : Char, (d = '-' → e ≠ '-') → ∀ t : Text,
      stripLines false (d :: e :: t) = d :: stripLines false (e :: t) := by
    intro d e hde t
    rw [stripLines]
    rintro r rfl hr
    exact hde rfl (List.cons.inj hr).1
  induction x with
  | nil => rfl
  | cons d x ih =>
    cases x with
    | nil => exact hstep d c (fun _ => hc) s
    | cons e x =>
      rw [hasPair, Bool.or_eq_false_iff] at hx
      have hde : d = '-' → e ≠ '-' := by simpa using hx.1
      rw [List.cons_append, List.cons_append, hstep d e hde, ← List.cons_append, ih hx.2]
      rfl

theorem stripBlocks_of_ne {c : Char} (hc : c ≠ '/') (s : Text) :
    stripBlocks (c :: s) = c :: stripBlocks s := by
  rw [stripBlocks]
  rintro r rfl -
  exact hc rfl

theorem afterBlock?_append {x : Text} (hx : ∀ c ∈ x, c ≠ '*') (s : Text) :
    afterBlock? (x ++ '*' :: '/' :: s) = some s := by
  induction x with
  | nil => rfl
  | cons c x ih =>
    obtain ⟨hc, hx⟩ := List.forall_mem_cons.1 hx
    rw [List.cons_append, afterBlock?, ih hx]
    rintro r rfl -
    exact hc rfl

theorem stripBlocks_block {x : Text} (hx : ∀ c ∈ x, c ≠ '*') (s : Text) :
    stripBlocks ('/' :: '*' :: (x ++ '*' :: '/' :: s)) = stripBlocks s := by
  rw [stripBlocks]
  split
  · rename_i r hr
    rw [afterBlock?_append hx] at hr
    rw [Option.some.inj hr]
  · rename_i hnone
    rw [afterBlock?_append hx] at hnone
    cases hnone

theorem of_isAsciiStart {P : Char → Prop} [DecidablePred P]
    (h : ∀ n < 128, Script.isAsciiStart (Char.ofNat n) = true → P (Char.ofNat n)) {c : Char}
    (hc : Script.isAsciiStart c = true) : P c := by
  have hpart : Script.isAsciiPart c = true := by
    simp only [Script.isAsciiStart, Bool.or_eq_true] at hc
    simp only [Script.isAsciiPart, Char.isAlphanum, Bool.or_eq_true]
    exact hc.imp_left .inl
  exact of_ascii (P := fun c => Script.isAsciiStart c = true → P c) h
    (Script.isAsciiPart_lt hpart) hc

theorem of_isSeparator {P : Char → Prop}
    (h : ∀ c ∈ ([' ', '\n', '(', ')', ',', ';'] : Text), P c) {c : Char} (hc : isSeparator c = true) :
    P c := h c (List.contains_iff_mem.1 hc)

/-- Between comments nothing begins a comment, and no letter is taken for the prefix of a literal. -/
theorem passage_classes {c : Char} (hc : Script.isAsciiStart c = true ∨ isSeparator c = true) :
    c ≠ '-' ∧ c ≠ '/' ∧ c ∉ (['\'', '"', '&'] : Text) := by
  rcases hc with hc | hc
  · exact of_isAsciiStart (P := fun c => c ≠ '-' ∧ c ≠ '/' ∧ c ∉ (['\'', '"', '&'] : Text))
      (by decide) hc
  · exact of_isSeparator (P := fun c => c ≠ '-' ∧ c ≠ '/' ∧ c ∉ (['\'', '"', '&'] : Text))
      (by decide) hc

namespace Passage

theorem stripLines_text (ps : List Passage) :
    stripLines false (ps.flatMap text) = ps.flatMap withoutLine := by
  induction ps with
  | nil => rfl
  | cons p ps ih =>
    rw [List.flatMap_cons, List.flatMap_cons, ← ih]
    cases p with
    | letter c hc => exact stripLines_of_ne (passage_classes (.inl hc)).1 _
    | separator c hc => exact stripLines_of_ne (passage_classes (.inr hc)).1 _
    | lineComment y hy =>
      have hbreak : ∀ c ∈ y, c ≠ '\n' := by
        rintro c hc rfl
        exact absurd (hy _ hc) (by decide)
      have hline := stripLines_line hbreak (ps.flatMap text)
      rw [text, List.cons_append, List.cons_append, List.append_assoc, List.singleton_append,
        stripLines, hline]
      rfl
    | blockComment x hx hline =>
      have hbody := stripLines_append hline (c := '*') (by decide) ('/' :: ps.flatMap text)
      rw [text, List.cons_append, List.cons_append, List.append_assoc, stripLines_of_ne (by decide),
        stripLines_of_ne (by decide)]
      simp only [List.cons_append, List.nil_append]
      rw [hbody, stripLines_of_ne (by decide), stripLines_of_ne (by decide)]
      simp [withoutLine, text]

theorem stripBlocks_withoutLine (ps : List Passage) :
    stripBlocks (ps.flatMap withoutLine) = ps.flatMap kept := by
  induction ps with
  | nil => exact stripBlocks.eq_1
  | cons p ps ih =>
    rw [List.flatMap_cons, List.flatMap_cons, ← ih]
    cases p with
    | letter c hc => exact stripBlocks_of_ne (passage_classes (.inl hc)).2.1 _
    | separator c hc => exact stripBlocks_of_ne (passage_classes (.inr hc)).2.1 _
    | lineComment y hy => exact stripBlocks_of_ne (by decide) _
    | blockComment x hx hline =>
      have hblock := stripBlocks_block (fun c hc => (hx c hc).1) (ps.flatMap withoutLine)
      simpa [withoutLine, text, kept] using hblock

theorem stripMarked_text (ps : List Passage) :
    stripMarked (ps.flatMap text) = ps.flatMap kept := by
  rw [stripMarked, stripLines_text, stripBlocks_withoutLine]

end Passage

namespace Token

theorem kept_of_not_isComment {kind : TokenKind} (h : ¬ IsComment kind) (s : Text) :
    (Token.mk kind s).lexeme.kept = s := by
  cases kind with
  | lineComment => exact absurd (.inl rfl) h
  | blockComment => exact absurd (.inr rfl) h
  | _ => rfl

def joining : Text :=
  ['\'', '"', '$', '.', '-', '/', '\r', '^', '%', '|', '<', '>', '&', '~', '#', '=', '!', ':', '@', '?']

theorem exists_extent?_separator {c : Char} (hc : isSeparator c = true) (s : Text) :
    ∃ kind, ¬ IsComment kind ∧ extent? c s = some (kind, 0) := by
  have hclasses := of_isSeparator (P := fun c => c.isDigit = false ∧ isWordStart c = false ∧
    c ∉ joining) (by decide +kernel) hc
  obtain ⟨hdigit, hword, hmark⟩ := hclasses
  simp only [joining, List.mem_cons, List.not_mem_nil, or_false, not_or] at hmark
  by_cases hblank : isBlank c = true
  · refine ⟨.blank, by simp [IsComment], ?_⟩
    rw [extent?_of_isBlank hblank, if_neg (by simp [hmark])]
  · refine ⟨.symbol, by simp [IsComment], ?_⟩
    have hsymbol : symbolExtent c s = 0 := by simp [symbolExtent, hmark]
    simp [extent?, hmark, hdigit, hword, hblank, hsymbol]

theorem extent?_letter {c : Char} (hc : Script.isAsciiStart c = true) {s : Text}
    (hs : ∀ d, s.head? = some d → d ∉ (['\'', '"', '&'] : Text)) :
    extent? c s = some (wordExtent s) := by
  have hclasses := of_isAsciiStart (P := fun c => (c.isDigit || c = '.') = false ∧
    isWordStart c = true ∧ c ∉ (['\'', '"', '$', '-', '/'] : Text)) (by decide +kernel) hc
  obtain ⟨hnumber, hword, hmark⟩ := hclasses
  simp only [List.mem_cons, List.not_mem_nil, or_false, not_or] at hmark
  simp only [extent?, hmark, hnumber, hword, decide_false, Bool.false_and, Bool.false_eq_true,
    if_false, if_true]
  unfold prefixedExtent?
  split
  case h_7 => rfl
  all_goals exact absurd (hs _ rfl) (by simp)

theorem exists_lex?_letter {c : Char} (hc : Script.isAsciiStart c = true) {s : Text} {ts : List Token}
    (hs : ∀ d, s.head? = some d → d ∉ (['\'', '"', '&'] : Text))
    (hword : ∀ d r, s = d :: r → isWordPart d = true → extent? d r = some (wordExtent r))
    (h : lex? s = some ts) : ∃ us, lex? (c :: s) = some us ∧ kept us = c :: kept ts := by
  obtain ⟨w, z, rfl, hrun⟩ : ∃ w z, s = w ++ z ∧ (w ++ z).takeWhile isWordPart = w :=
    ⟨s.takeWhile isWordPart, s.dropWhile isWordPart, by simp, by simp⟩
  have hextent : extent? c (w ++ z) = some (.word, w.length) := by
    rw [extent?_letter hc hs, wordExtent, hrun]
  have hlex := lex?_of_extent? hextent
  cases w with
  | nil =>
    rw [List.nil_append] at h hlex ⊢
    exact ⟨⟨.word, [c]⟩ :: ts, by rw [hlex, h]; rfl, rfl⟩
  | cons d w =>
    have hd : isWordPart d = true := List.mem_takeWhile_imp (hrun ▸ List.mem_cons_self)
    have hrest : (w ++ z).takeWhile isWordPart = w := by
      rw [List.cons_append, List.takeWhile_cons_of_pos hd] at hrun
      exact (List.cons.inj hrun).2
    -- The token that the text begins with is this word without the letter.
    have hextent' : extent? d (w ++ z) = some (.word, w.length) := by
      rw [hword d (w ++ z) rfl hd, wordExtent, hrest]
    rw [List.cons_append, lex?_of_extent? hextent'] at h
    obtain ⟨us, hus, rfl⟩ := Option.map_eq_some_iff.1 h
    exact ⟨⟨.word, c :: d :: w⟩ :: us, by rw [hlex, hus]; rfl, rfl⟩

end Token

namespace Passage

theorem head?_text {ps : List Passage} {d : Char} (h : (ps.flatMap text).head? = some d) :
    d ∉ (['\'', '"', '&'] : Text) ∧
      (Token.isWordPart d = true → ∃ hd qs, ps = letter d hd :: qs) := by
  cases ps with
  | nil => cases h
  | cons p ps =>
    cases p with
    | letter c hc =>
      cases h
      exact ⟨(passage_classes (.inl hc)).2.2, fun _ => ⟨hc, ps, rfl⟩⟩
    | separator c hc =>
      cases h
      have hpart := of_isSeparator (P := fun c => Token.isWordPart c = false) (by decide +kernel) hc
      exact ⟨(passage_classes (.inr hc)).2.2, fun hword => by simp [hpart] at hword⟩
    | lineComment y hy =>
      cases h
      exact ⟨by decide, fun hword => absurd hword (by decide +kernel)⟩
    | blockComment x hx hline =>
      cases h
      exact ⟨by decide, fun hword => absurd hword (by decide +kernel)⟩

/-- The text is read as tokens, and these keep what is no comment. -/
theorem exists_lex?_text (ps : List Passage) :
    ∃ ts, Token.lex? (ps.flatMap text) = some ts ∧ Token.kept ts = ps.flatMap kept := by
  induction ps with
  | nil => exact ⟨[], by rw [List.flatMap_nil, Token.lex?], rfl⟩
  | cons p ps ih =>
    obtain ⟨ts, hts, hkept⟩ := ih
    rw [List.flatMap_cons, List.flatMap_cons, ← hkept]
    cases p with
    | letter c hc =>
      -- The letter joins the word behind it, if one begins there.
      refine Token.exists_lex?_letter hc (fun d hd => (head?_text hd).1) ?_ hts
      intro d r (hr : ps.flatMap text = d :: r) hd
      obtain ⟨hletter, qs, rfl⟩ := (head?_text (congrArg List.head? hr)).2 hd
      obtain ⟨-, rfl⟩ := List.cons.inj hr
      exact Token.extent?_letter hletter fun e he => (head?_text he).1
    | separator c hc =>
      obtain ⟨kind, hkind, hextent⟩ := Token.exists_extent?_separator hc (ps.flatMap text)
      have hlex : Token.lex? (c :: ps.flatMap text) =
          (Token.lex? (ps.flatMap text)).map (⟨kind, [c]⟩ :: ·) :=
        Token.lex?_of_extent? (v := []) hextent
      rw [hts] at hlex
      refine ⟨⟨kind, [c]⟩ :: ts, hlex, ?_⟩
      rw [Token.kept_cons, Token.kept_of_not_isComment hkind]
      rfl
    | lineComment y hy =>
      have hlex := Token.lex?_lineComment hy (ps.flatMap text)
      rw [hts] at hlex
      refine ⟨⟨.lineComment, '-' :: '-' :: (y ++ ['\n'])⟩ :: ts, ?_, ?_⟩
      · rw [text, List.cons_append, List.cons_append, List.append_assoc]
        exact hlex
      · rw [Token.kept_cons, Token.kept_lineComment hy]
        rfl
    | blockComment x hx hline =>
      have hlex := Token.lex?_blockComment hx (ps.flatMap text)
      rw [hts] at hlex
      refine ⟨⟨.blockComment, '/' :: '*' :: (x ++ ['*', '/'])⟩ :: ts, ?_, rfl⟩
      rw [text, List.cons_append, List.cons_append, List.append_assoc]
      exact hlex

end Passage

/-- In a text of words and comments that do not hide each other's marks, which can be read as tokens,
both ways to remove comments remove them and nothing else. -/
theorem stripComments_passages (ps : List Passage) :
    (locatedTokens? (ps.flatMap Passage.text)).isSome = true ∧
      stripComments (ps.flatMap Passage.text) = stripMarked (ps.flatMap Passage.text) ∧
      stripMarked (ps.flatMap Passage.text) = ps.flatMap Passage.kept := by
  obtain ⟨ts, hts, hkept⟩ := Passage.exists_lex?_text ps
  have hmarked := Passage.stripMarked_text ps
  refine ⟨?_, ?_, hmarked⟩
  · rw [locatedTokens?, hts]
    rfl
  · rw [stripComments_of_lex? hts, hkept, hmarked]

/-- A comment mark inside a comment of the other kind is seen by the search for marks alone. -/
example : stripComments "/* -- */ a" = " a".toList ∧
    stripMarked "/* -- */ a" = "/* ".toList := by decide +kernel

end SchemaDiagram.Sql
