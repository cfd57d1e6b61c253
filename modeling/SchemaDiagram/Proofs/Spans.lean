import SchemaDiagram.Proofs.Level

/-!
Quoted spans as a grammar. From left to right, a text is lexed into characters outside quotes and
spans, which are quoted names, plain literals and escape literals; a span without an end covers the
rest. Every text has one lexing, and the pass that follows quotes covers just the spans of it
(`coverage_lexing`).
-/

set_option autoImplicit false

namespace SchemaDiagram.Sql
open Unicode

inductive SpanKind where
  | name
  | plainLiteral
  | escapeLiteral
  deriving DecidableEq, Repr

def joinsWord (c : Char) : Bool := isAlphanumeric c || c = '_'

def endsWithMark (before : Text) : Bool :=
  match before.reverse with
  | [] => false
  | c :: lead => (c = 'E' || c = 'e') && !lead.head?.any joinsWord

def opened? (before : Text) (c : Char) : Option SpanKind :=
  if c = '"' then some .name
  else if c = '\'' then some (if endsWithMark before then .escapeLiteral else .plainLiteral)
  else none

namespace SpanKind

def quote : SpanKind → Char
  | name => '"'
  | plainLiteral => '\''
  | escapeLiteral => '\''

/-- What may stand between the quotes of a span: a quote only doubled, and in an escape literal a
backslash only with the character that it takes. -/
inductive Content (kind : SpanKind) : Text → Prop where
  | nil : Content kind []
  | char {c : Char} {s : Text} (hquote : c ≠ kind.quote) (hescape : kind = escapeLiteral → c ≠ '\\')
      (h : Content kind s) : Content kind (c :: s)
  | quotes {s : Text} (h : Content kind s) : Content kind (kind.quote :: kind.quote :: s)
  | escaped {c : Char} {s : Text} (hkind : kind = escapeLiteral) (h : Content kind s) :
      Content kind ('\\' :: c :: s)

/-- Behind its opening quote, a span ends at a quote that is not doubled. -/
structure Closes (kind : SpanKind) (s body rest : Text) : Prop where
  text : s = body ++ kind.quote :: rest
  content : kind.Content body
  single : rest.head? ≠ some kind.quote

end SpanKind

inductive Piece where
  | bare (c : Char)
  | span (kind : SpanKind) (text : Text)
  deriving DecidableEq, Repr

namespace Piece

def text : Piece → Text
  | bare c => [c]
  | span _ text => text

def coverage : Piece → List Bool
  | bare _ => [false]
  | span _ text => text.map fun _ => true

end Piece

/-- The pieces of a text that stands behind another one. -/
inductive Lexing : Text → Text → List Piece → Prop where
  | done (before : Text) : Lexing before [] []
  | bare {before s : Text} {c : Char} {ps : List Piece} (hc : opened? before c = none)
      (h : Lexing (before ++ [c]) s ps) : Lexing before (c :: s) (.bare c :: ps)
  | closed {before s body rest : Text} {c : Char} {kind : SpanKind} {ps : List Piece}
      (hc : opened? before c = some kind) (hcloses : kind.Closes s body rest)
      (h : Lexing (before ++ c :: (body ++ [kind.quote])) rest ps) :
      Lexing before (c :: s) (.span kind (c :: (body ++ [kind.quote])) :: ps)
  | unclosed {before s : Text} {c : Char} {kind : SpanKind} (hc : opened? before c = some kind)
      (hopen : ∀ body rest, ¬ kind.Closes s body rest) :
      Lexing before (c :: s) [.span kind (c :: s)]

def Quoting.coverage : Quoting → Text → List Bool
  | _, [] => []
  | q, c :: s => q.covers c :: coverage (q.step c) s

theorem opened?_eq_none_iff {before : Text} {c : Char} :
    opened? before c = none ↔ Quoting.isQuote c = false := by
  simp only [opened?, Quoting.isQuote]
  split
  · simp [*]
  · split <;> simp [*]

theorem quote_of_opened? {before : Text} {c : Char} {kind : SpanKind}
    (h : opened? before c = some kind) : c = kind.quote := by
  simp only [opened?] at h
  split at h
  · cases h
    assumption
  · split at h
    · cases h
      split <;> assumption
    · cases h

namespace SpanKind

theorem quote_ne_backslash (kind : SpanKind) : kind.quote ≠ '\\' := by cases kind <;> decide

theorem Content.unique {kind : SpanKind} {body rest body' rest' : Text} (h : kind.Content body)
    (h' : kind.Content body') (hrest : rest.head? ≠ some kind.quote)
    (hrest' : rest'.head? ≠ some kind.quote)
    (hsame : body ++ kind.quote :: rest = body' ++ kind.quote :: rest') :
    body = body' ∧ rest = rest' := by
  have hquote := kind.quote_ne_backslash
  induction h generalizing body' with
  | nil =>
    -- A content that went on would begin with the second quote of two, but none follows.
    cases h' with
    | nil => exact ⟨rfl, (List.cons.inj hsame).2⟩
    | char hne => exact absurd (List.cons.inj hsame).1.symm hne
    | quotes _ =>
      obtain ⟨-, rfl⟩ := List.cons.inj hsame
      exact absurd rfl hrest
    | escaped _ _ => exact absurd (List.cons.inj hsame).1 hquote
  | char hne hescape _ ih =>
    cases h' with
    | nil => exact absurd (List.cons.inj hsame).1 hne
    | char _ _ h' =>
      obtain ⟨rfl, htail⟩ := List.cons.inj hsame
      obtain ⟨rfl, rfl⟩ := ih h' htail
      exact ⟨rfl, rfl⟩
    | quotes _ => exact absurd (List.cons.inj hsame).1 hne
    | escaped hkind _ => exact absurd (List.cons.inj hsame).1 (hescape hkind)
  | quotes _ ih =>
    cases h' with
    | nil =>
      obtain ⟨-, rfl⟩ := List.cons.inj hsame
      exact absurd rfl hrest'
    | char hne => exact absurd (List.cons.inj hsame).1.symm hne
    | quotes h' =>
      obtain ⟨rfl, rfl⟩ := ih h' (List.cons.inj (List.cons.inj hsame).2).2
      exact ⟨rfl, rfl⟩
    | escaped _ _ => exact absurd (List.cons.inj hsame).1 hquote
  | escaped hkind _ ih =>
    cases h' with
    | nil => exact absurd (List.cons.inj hsame).1.symm hquote
    | char _ hescape => exact absurd (List.cons.inj hsame).1.symm (hescape hkind)
    | quotes _ => exact absurd (List.cons.inj hsame).1.symm hquote
    | escaped _ h' =>
      obtain ⟨rfl, htail⟩ := List.cons.inj (List.cons.inj hsame).2
      obtain ⟨rfl, rfl⟩ := ih h' htail
      exact ⟨rfl, rfl⟩

theorem Closes.unique {kind : SpanKind} {s body rest body' rest' : Text}
    (h : kind.Closes s body rest) (h' : kind.Closes s body' rest') : body = body' ∧ rest = rest' :=
  h.content.unique h'.content h.single h'.single (h.text.symm.trans h'.text)

end SpanKind

namespace Lexing

theorem text {before s : Text} {ps : List Piece} (h : Lexing before s ps) :
    ps.flatMap Piece.text = s := by
  induction h with
  | done => rfl
  | bare _ _ ih => rw [List.flatMap_cons, ih, Piece.text, List.singleton_append]
  | closed _ hcloses _ ih =>
    rw [List.flatMap_cons, ih, Piece.text, hcloses.text]
    simp
  | unclosed => exact List.flatMap_singleton _ _

theorem unique {before s : Text} {ps qs : List Piece} (h : Lexing before s ps)
    (h' : Lexing before s qs) : qs = ps := by
  induction h generalizing qs with
  | done =>
    cases h'
    rfl
  | bare hc _ ih =>
    cases h' with
    | bare _ h' => rw [ih h']
    | closed hc' => cases hc.symm.trans hc'
    | unclosed hc' => cases hc.symm.trans hc'
  | closed hc hcloses _ ih =>
    cases h' with
    | bare hc' => cases hc.symm.trans hc'
    | closed hc' hcloses' h' =>
      cases hc.symm.trans hc'
      obtain ⟨rfl, rfl⟩ := hcloses.unique hcloses'
      rw [ih h']
    | unclosed hc' hopen =>
      cases hc.symm.trans hc'
      exact absurd hcloses (hopen _ _)
  | unclosed hc hopen =>
    cases h' with
    | bare hc' => cases hc.symm.trans hc'
    | closed hc' hcloses =>
      cases hc.symm.trans hc'
      exact absurd hcloses (hopen _ _)
    | unclosed hc' =>
      cases hc.symm.trans hc'
      rfl

end Lexing

theorem exists_lexing (before : Text) : ∀ s : Text, ∃ ps, Lexing before s ps
  | [] => ⟨[], .done before⟩
  | c :: s => by
    cases hc : opened? before c with
    | none =>
      obtain ⟨ps, h⟩ := exists_lexing (before ++ [c]) s
      exact ⟨_, .bare hc h⟩
    | some kind =>
      by_cases hend : ∃ body rest, kind.Closes s body rest
      · obtain ⟨body, rest, hcloses⟩ := hend
        have hlength : rest.length < s.length := by
          rw [hcloses.text, List.length_append, List.length_cons]
          omega
        obtain ⟨ps, h⟩ := exists_lexing (before ++ c :: (body ++ [kind.quote])) rest
        exact ⟨_, .closed hc hcloses h⟩
      · exact ⟨_, .unclosed hc fun body rest hcloses => hend ⟨body, rest, hcloses⟩⟩
termination_by s => s.length

namespace Quoting

theorem coverage_append (q : Quoting) (s t : Text) :
    q.coverage (s ++ t) = q.coverage s ++ (q.after s).coverage t := by
  induction s generalizing q with
  | nil => rfl
  | cons c s ih => exact congrArg (q.covers c :: ·) (ih (q.step c))

end Quoting

namespace SpanKind

def inside : SpanKind → Quoting
  | name => .plain '"'
  | plainLiteral => .plain '\''
  | escapeLiteral => .escape

def behind : SpanKind → Before
  | name => .gap
  | plainLiteral => .gap
  | escapeLiteral => .escapeLiteral

theorem isOpen_inside (kind : SpanKind) : kind.inside.isOpen = true := by cases kind <;> rfl

theorem isQuote_quote (kind : SpanKind) : Quoting.isQuote kind.quote = true := by
  cases kind <;> decide

theorem covers_inside (kind : SpanKind) (c : Char) : kind.inside.covers c = true := by
  rw [Quoting.covers, isOpen_inside, Bool.true_or]

theorem covers_quote (kind : SpanKind) (q : Quoting) : q.covers kind.quote = true := by
  rw [Quoting.covers, isQuote_quote, Bool.or_true]

theorem step_quote (kind : SpanKind) : kind.inside.step kind.quote = .outside kind.behind := by
  cases kind <;> rfl

/-- The second of two quotes opens the span again. -/
theorem step_behind (kind : SpanKind) : (Quoting.outside kind.behind).step kind.quote = kind.inside := by
  cases kind <;> rfl

theorem step_char {kind : SpanKind} {c : Char} (hquote : c ≠ kind.quote)
    (hescape : kind = escapeLiteral → c ≠ '\\') : kind.inside.step c = kind.inside := by
  cases kind with
  | name => exact if_neg hquote
  | plainLiteral => exact if_neg hquote
  | escapeLiteral =>
    have hquote : c ≠ '\'' := hquote
    simp [inside, Quoting.step, hescape rfl, hquote]

theorem Content.coverage {kind : SpanKind} {body : Text} (h : kind.Content body) :
    kind.inside.coverage body = (body.map fun _ => true) ∧ kind.inside.after body = kind.inside := by
  induction h with
  | nil => exact ⟨rfl, rfl⟩
  | @char c s hquote hescape _ ih =>
    have hafter : kind.inside.after (c :: s) = (kind.inside.step c).after s := rfl
    rw [hafter, Quoting.coverage, step_char hquote hescape, ih.1, ih.2, covers_inside]
    exact ⟨rfl, rfl⟩
  | @quotes s _ ih =>
    have hafter : kind.inside.after (kind.quote :: kind.quote :: s) =
        ((kind.inside.step kind.quote).step kind.quote).after s := rfl
    rw [hafter, Quoting.coverage, Quoting.coverage, step_quote, step_behind, ih.1, ih.2,
      covers_quote, covers_quote]
    exact ⟨rfl, rfl⟩
  | @escaped c s hkind _ ih =>
    subst hkind
    exact ⟨congrArg (true :: true :: ·) ih.1, ih.2⟩

/-- Behind its opening quote, a span ends, or the rest is content of it; a backslash at the end has
nothing to take. -/
theorem content_or_closes (kind : SpanKind) : ∀ s : Text,
    (kind.Content s ∨ kind = escapeLiteral ∧ ∃ body, s = body ++ ['\\'] ∧ kind.Content body) ∨
      ∃ body rest, kind.Closes s body rest
  | [] => .inl (.inl .nil)
  | c :: s => by
    by_cases hquote : c = kind.quote
    · subst hquote
      by_cases hdouble : s.head? = some kind.quote
      · obtain ⟨t, rfl⟩ := List.head?_eq_some_iff.1 hdouble
        rcases content_or_closes kind t with (h | ⟨hkind, body, rfl, h⟩) | ⟨body, rest, rfl, h, hsingle⟩
        · exact .inl (.inl (.quotes h))
        · exact .inl (.inr ⟨hkind, _, rfl, .quotes h⟩)
        · exact .inr ⟨_, rest, rfl, .quotes h, hsingle⟩
      · exact .inr ⟨[], s, rfl, .nil, hdouble⟩
    by_cases hescape : kind = escapeLiteral ∧ c = '\\'
    · obtain ⟨rfl, rfl⟩ := hescape
      cases s with
      | nil => exact .inl (.inr ⟨rfl, [], rfl, .nil⟩)
      | cons d t =>
        rcases content_or_closes escapeLiteral t with
          (h | ⟨-, body, rfl, h⟩) | ⟨body, rest, rfl, h, hsingle⟩
        · exact .inl (.inl (.escaped rfl h))
        · exact .inl (.inr ⟨rfl, _, rfl, .escaped rfl h⟩)
        · exact .inr ⟨_, rest, rfl, .escaped rfl h, hsingle⟩
    · have hslash : kind = escapeLiteral → c ≠ '\\' := fun hkind hc => hescape ⟨hkind, hc⟩
      rcases content_or_closes kind s with (h | ⟨hkind, body, rfl, h⟩) | ⟨body, rest, rfl, h, hsingle⟩
      · exact .inl (.inl (.char hquote hslash h))
      · exact .inl (.inr ⟨hkind, _, rfl, .char hquote hslash h⟩)
      · exact .inr ⟨_, rest, rfl, .char hquote hslash h, hsingle⟩
termination_by s => s.length

theorem coverage_of_unclosed {kind : SpanKind} {s : Text} (h : ∀ body rest, ¬ kind.Closes s body rest) :
    kind.inside.coverage s = s.map fun _ => true := by
  rcases (kind.content_or_closes s).resolve_right fun ⟨body, rest, hcloses⟩ => h body rest hcloses with
    hcontent | ⟨-, body, rfl, hcontent⟩
  · exact hcontent.coverage.1
  · obtain ⟨hbody, hinside⟩ := hcontent.coverage
    rw [Quoting.coverage_append, hinside, hbody, Quoting.coverage, covers_inside, List.map_append]
    rfl

end SpanKind

theorem endsWithMark_concat (before : Text) (c : Char) :
    endsWithMark (before ++ [c]) =
      ((c = 'E' || c = 'e') && !before.getLast?.any joinsWord) := by
  simp [endsWithMark, List.head?_reverse]

theorem joinsWord_mark {c : Char} (hc : (c = 'E' || c = 'e') = true) : joinsWord c = true := by
  simp only [Bool.or_eq_true, decide_eq_true_eq] at hc
  rcases hc with rfl | rfl <;> decide

theorem any_joinsWord_of_endsWithMark {before : Text} (h : endsWithMark before = true) :
    before.getLast?.any joinsWord = true := by
  rcases List.eq_nil_or_concat before with rfl | ⟨lead, c, rfl⟩
  · cases h
  · rw [List.concat_eq_append, endsWithMark_concat, Bool.and_eq_true] at h
    simpa using joinsWord_mark h.1

namespace Before

/-- What the pass knows of the text in front of a place outside quotes, unless a quote is doubled
there. -/
def behind (before : Text) : Before :=
  if endsWithMark before then .escapeMark
  else if before.getLast?.any joinsWord then .word
  else .gap

theorem behind_cases (before : Text) :
    (behind before = .escapeMark ∧ endsWithMark before = true ∧
        before.getLast?.any joinsWord = true) ∨
      (behind before = .word ∧ endsWithMark before = false ∧
        before.getLast?.any joinsWord = true) ∨
      behind before = .gap ∧ endsWithMark before = false ∧
        before.getLast?.any joinsWord = false := by
  unfold behind
  split
  · rename_i hmark
    exact .inl ⟨rfl, hmark, any_joinsWord_of_endsWithMark hmark⟩
  · rename_i hmark
    have hmark : endsWithMark before = false := by simpa using hmark
    split
    · rename_i hword
      exact .inr (.inl ⟨rfl, hmark, hword⟩)
    · rename_i hword
      exact .inr (.inr ⟨rfl, hmark, by simpa using hword⟩)

theorem next_eq (b : Before) (c : Char) :
    Quoting.Before.next b c =
      if joinsWord c then
        if (c = 'E' || c = 'e') && (b = .gap || b = .escapeLiteral) then .escapeMark else .word
      else .gap := rfl

theorem next_behind (before : Text) (c : Char) :
    Quoting.Before.next (behind before) c = behind (before ++ [c]) := by
  have hlast : (before ++ [c]).getLast?.any joinsWord = joinsWord c := by simp
  have hgap : (behind before = .gap || behind before = .escapeLiteral) =
      !before.getLast?.any joinsWord := by
    rcases behind_cases before with ⟨hb, -, hword⟩ | ⟨hb, -, hword⟩ | ⟨hb, -, hword⟩ <;>
      simp [hb, hword]
  rw [next_eq, hgap, ← endsWithMark_concat, behind, hlast]
  by_cases hmark : endsWithMark (before ++ [c]) = true
  · have hjoins := any_joinsWord_of_endsWithMark hmark
    rw [hlast] at hjoins
    rw [if_pos hjoins, if_pos hmark, if_pos hmark]
  · rw [if_neg hmark, if_neg hmark]

theorem behind_concat_quote (kind : SpanKind) (before : Text) :
    behind (before ++ [kind.quote]) = .gap := by
  have hquote : joinsWord kind.quote = false := by cases kind <;> decide
  rw [← next_behind, next_eq, hquote]
  rfl

end Before

/-- What a character opens behind a text is what the pass takes it for. -/
theorem step_opened {before : Text} {c : Char} {kind : SpanKind}
    (h : opened? before c = some kind) :
    (Quoting.outside (Before.behind before)).step c = kind.inside := by
  simp only [opened?] at h
  split at h
  · rename_i hc
    cases h
    subst hc
    rfl
  split at h
  · rename_i hc
    cases h
    subst hc
    rcases Before.behind_cases before with ⟨hb, hmark, -⟩ | ⟨hb, hmark, -⟩ | ⟨hb, hmark, -⟩ <;>
      (rw [hb, hmark]; rfl)
  · cases h

theorem step_behind_of_ne {kind : SpanKind} {c : Char} (hc : c ≠ kind.quote) :
    (Quoting.outside kind.behind).step c = (Quoting.outside .gap).step c := by
  cases kind with
  | name => rfl
  | plainLiteral => rfl
  | escapeLiteral =>
    have hc : c ≠ '\'' := hc
    simp [SpanKind.behind, Quoting.step, hc, Before.next_eq]

theorem coverage_behind {kind : SpanKind} {rest : Text} (h : rest.head? ≠ some kind.quote) :
    (Quoting.outside kind.behind).coverage rest = (Quoting.outside .gap).coverage rest := by
  cases rest with
  | nil => rfl
  | cons c rest =>
    have hc : c ≠ kind.quote := by simpa using h
    rw [Quoting.coverage, Quoting.coverage, step_behind_of_ne hc]
    rfl

/-- The pass covers just what the pieces cover. -/
theorem Lexing.coverage {before s : Text} {ps : List Piece} (h : Lexing before s ps) :
    (Quoting.outside (Before.behind before)).coverage s = ps.flatMap Piece.coverage := by
  induction h with
  | done => rfl
  | @bare before s c ps hc _ ih =>
    have hquote := opened?_eq_none_iff.1 hc
    have hcovers : (Quoting.outside (Before.behind before)).covers c = false := hquote
    rw [Quoting.coverage, Quoting.step_outside hquote, Before.next_behind, ih, hcovers]
    rfl
  | @closed before s body rest c kind ps hc hcloses _ ih =>
    obtain ⟨rfl, hcontent, hsingle⟩ := hcloses
    have hquote := quote_of_opened? hc
    have hafter : (before ++ c :: (body ++ [kind.quote])) =
        (before ++ c :: body) ++ [kind.quote] := by simp
    rw [hafter, Before.behind_concat_quote] at ih
    obtain ⟨hbody, hinside⟩ := hcontent.coverage
    -- Here the pass still knows the span, in case its quote is doubled; it is not, by `hsingle`.
    have hcovers : (Quoting.outside (Before.behind before)).covers c = true := by
      rw [hquote, kind.covers_quote]
    rw [Quoting.coverage, step_opened hc, Quoting.coverage_append, hinside, Quoting.coverage,
      kind.step_quote, coverage_behind hsingle, ih, hbody, kind.covers_quote, hcovers]
    simp [Piece.coverage]
  | @unclosed before s c kind hc hopen =>
    have hquote := quote_of_opened? hc
    have hcovers : (Quoting.outside (Before.behind before)).covers c = true := by
      rw [hquote, kind.covers_quote]
    rw [Quoting.coverage, step_opened hc, SpanKind.coverage_of_unclosed hopen, hcovers]
    simp [Piece.coverage]

/-- A text is lexed in one way, and the pass that follows quotes covers just the spans of it. -/
theorem coverage_lexing (s : Text) :
    ∃ ps, (∀ qs, Lexing [] s qs ↔ qs = ps) ∧ ps.flatMap Piece.text = s ∧
      Quoting.start.coverage s = ps.flatMap Piece.coverage := by
  obtain ⟨ps, h⟩ := exists_lexing [] s
  refine ⟨ps, fun qs => ⟨h.unique, ?_⟩, h.text, h.coverage⟩
  rintro rfl
  exact h

/-- An escaped quote inside an escape literal; then an E that belongs to a word, so that the quote
behind the backslash is one of two, and nothing ends the literal. -/
example : Quoting.start.coverage "E'\\''aE'\\''" =
    [false, true, true, true, true, false, false, true, true, true, true] := by decide +kernel

end SchemaDiagram.Sql
