import SchemaDiagram.Proofs.Declaration.TypeName

/-!
Any type in front of the modifiers. A reader of types takes no part of a gap and of a word behind it
that belongs to no type, so a text that is a whole type is read as one wherever it stands in front of
such words (`dataType?_append`).
-/

set_option autoImplicit false

namespace SchemaDiagram.Declaration
open Sql Unicode Text

/-- In front of the tail the reader takes what it takes of the text alone. -/
def Spares (tail : Text) (read : Text → Option Text) : Prop :=
  ∀ s, read (s ++ tail) = (read s).map (· ++ tail)

namespace Spares
variable {tail : Text} {read next : Text → Option Text}

theorem bind (h : Spares tail read) (hnext : Spares tail next) :
    Spares tail fun s => (read s).bind next := by
  intro s
  simp only [h s]
  cases read s with
  | none => rfl
  | some r => exact hnext r

theorem orElse (h : Spares tail read) (hnext : Spares tail next) :
    Spares tail fun s => read s <|> next s := by
  intro s
  simp only [h s, hnext s]
  cases read s <;> rfl

theorem optional (h : Spares tail read) (s : Text) :
    Sql.optional read (s ++ tail) = Sql.optional read s ++ tail := by
  rw [Sql.optional, h s, Sql.optional]
  cases read s <;> rfl

theorem skipBlanks (h : Spares tail read) (hend : read [] = none)
    (htail : read (skipBlanks tail) = none) : Spares tail fun s => read (skipBlanks s) := by
  intro s
  have hskip : Sql.skipBlanks (s ++ tail) =
      if (Sql.skipBlanks s).isEmpty then Sql.skipBlanks tail else Sql.skipBlanks s ++ tail :=
    List.dropWhile_append
  simp only [hskip]
  split
  · rename_i hempty
    rw [List.isEmpty_iff.1 hempty, hend, htail]
    rfl
  · exact h _

theorem blanks (h : Spares tail read) (hend : read [] = none)
    (htail : read (Sql.skipBlanks tail) = none) : Spares tail fun s => (blanks? s).bind read := by
  intro s
  cases s with
  | nil =>
    cases tail with
    | nil => rfl
    | cons b tail =>
      by_cases hb : isBlank b = true
      · rw [skipBlanks_blank hb] at htail
        simp [blanks?, hb, htail]
      · simp [blanks?, hb]
  | cons b s =>
    by_cases hb : isBlank b = true
    · have hrest := h.skipBlanks hend htail s
      simpa [blanks?, hb] using hrest
    · simp [blanks?, hb]

end Spares

section
variable {k : Casing} {tail : Text} (h : Follows k tail)
include h

theorem Follows.endsWord : endsWord tail = true := by
  cases tail with
  | nil => rfl
  | cons c s => rw [h.head? rfl]; exact endsWord_space s

theorem Follows.dropWhile {p : Char → Bool} (hp : p ' ' = false) (s : Text) :
    (s ++ tail).dropWhile p = s.dropWhile p ++ tail := by
  cases tail with
  | nil => rw [List.append_nil, List.append_nil]
  | cons c t => rw [h.head? rfl]; exact dropWhile_append_mark hp s t

theorem Follows.skipBlanks_cases : skipBlanks tail = [] ∨
    ∃ c s, skipBlanks tail = c :: s ∧ isBlank c = false ∧ isNameDigit c = false := by
  have hclasses : ∀ c, Script.isAsciiPart c = true → c.toUpper.isUpper = true →
      isNameDigit c = false :=
    fun c hc => Script.of_isAsciiPart (P := fun c => c.toUpper.isUpper = true → isNameDigit c = false)
      (by decide +kernel) hc
  rcases h with rfl | ⟨w, -, rest, -, rfl⟩
  · exact .inl rfl
  · have hplain := k.plain_spell w.isCapital
    obtain ⟨b, v, hv⟩ := List.exists_cons_of_ne_nil w.isCapital.1
    have hb : b.isUpper = true := w.isCapital.2 b (by simp [hv])
    obtain ⟨hpart, hupper⟩ := k.letter_classes hb
    have hspell : k.spell w.text = (if k b then b.toLower else b) :: k.spell v := by rw [hv]; rfl
    refine .inr ⟨if k b then b.toLower else b, k.spell v ++ rest, ?_, ?_, ?_⟩
    · rw [skipBlanks_blank (by decide), hplain.skipBlanks, hspell]
      rfl
    · exact hplain.isBlank _ (by simp [hspell])
    · exact hclasses _ hpart (by rw [hupper, hb])

def laterWords : List Text := ["PRECISION", "VARYING", "WITHOUT", "WITH", "TIME", "ZONE"]

theorem Follows.keyword?_later {v : Text} (hv : v ∈ laterWords) :
    Sql.keyword? v (skipBlanks tail) = none := by
  have hcapital : ∀ v ∈ laterWords, IsCapital v := by decide
  rcases h with rfl | ⟨w, hw, rest, hrest, rfl⟩
  · obtain ⟨c, v, rfl⟩ := List.exists_cons_of_ne_nil (hcapital v hv).1
    rfl
  · have hnone : ∀ w ∈ starts, ∀ v ∈ laterWords, Sql.keyword? v w.text = none := by decide
    rw [skipBlanks_blank (by decide), (k.plain_spell w.isCapital).skipBlanks,
      k.keyword?_spell_append (hcapital v hv).2 w.isCapital hrest, hnone w hw v hv]
    rfl

theorem spares_keyword? {w : Text} (hw : ∀ c ∈ w, c.isUpper = true) : Spares tail (keyword? w) :=
  fun s => keyword?_append hw h.endsWord s

theorem spares_later {v : Text} (hv : v ∈ laterWords) :
    Spares tail fun s => (blanks? s).bind (keyword? v) := by
  have hcapital : ∀ v ∈ laterWords, IsCapital v := by decide
  obtain ⟨c, r, rfl⟩ := List.exists_cons_of_ne_nil (hcapital v hv).1
  exact (spares_keyword? h (hcapital _ hv).2).blanks rfl (h.keyword?_later hv)

theorem spares_phrase? {v w : Text} (hv : ∀ c ∈ v, c.isUpper = true) (hw : w ∈ laterWords) :
    Spares tail (phrase? [v, w]) :=
  (spares_keyword? h hv).bind (spares_later h hw)

theorem spares_mark? {m : Char} (hm : m ≠ ' ') : Spares tail (mark? m) := by
  intro s
  cases s with
  | nil =>
    cases tail with
    | nil => rfl
    | cons c t => simp [mark?, h.head? rfl, hm.symm]
  | cons c s =>
    rw [List.cons_append, mark?, mark?]
    split <;> rfl

theorem spares_behind {m : Char} (hm : Script.isAsciiPart m = false) (hspace : m ≠ ' ') :
    Spares tail fun s => mark? m (skipBlanks s) :=
  (spares_mark? h hspace).skipBlanks rfl (h.mark? hm)

theorem spares_digits {m : Char} (hm : Script.isAsciiPart m = false) (hspace : m ≠ ' ') :
    Spares tail fun s => mark? m (skipBlanks ((skipBlanks s).dropWhile isNameDigit)) := by
  have hread : Spares tail fun s => mark? m (skipBlanks (s.dropWhile isNameDigit)) := by
    intro s
    simp only [h.dropWhile (p := isNameDigit) (by decide)]
    exact spares_behind h hm hspace _
  refine hread.skipBlanks rfl ?_
  rcases h.skipBlanks_cases with hnil | ⟨c, s, hs, hc, hdigit⟩
  · rw [hnil]
    rfl
  · have hnone := h.mark? hm
    rw [hs] at hnone
    simp only [hs, List.dropWhile_cons_of_neg (show ¬ isNameDigit c = true by simp [hdigit]),
      skipBlanks_solid hc, hnone]

theorem spares_precision? : Spares tail precision? := by
  have hdigits : Spares tail fun s =>
      if ((skipBlanks s).dropWhile isNameDigit).length < (skipBlanks s).length then
        mark? ')' (skipBlanks ((skipBlanks s).dropWhile isNameDigit)) else none := by
    have hread : Spares tail fun s => if (s.dropWhile isNameDigit).length < s.length then
        mark? ')' (skipBlanks (s.dropWhile isNameDigit)) else none := by
      intro s
      simp only [h.dropWhile (p := isNameDigit) (by decide), List.length_append,
        Nat.add_lt_add_iff_right]
      split
      · exact spares_behind h (by decide) (by decide) _
      · rfl
    refine hread.skipBlanks rfl ?_
    rcases h.skipBlanks_cases with hnil | ⟨c, s, hs, -, hdigit⟩
    · rw [hnil]
      rfl
    · simp [hs, hdigit]
  exact (spares_behind h (by decide) (by decide)).bind hdigits

theorem spares_zonedTime? : Spares tail zonedTime? := by
  have heither : ∀ {v w : Text}, (∀ c ∈ v, c.isUpper = true) → (∀ c ∈ w, c.isUpper = true) →
      Spares tail fun s => keyword? v s <|> keyword? w s :=
    fun hv hw => (spares_keyword? h hv).orElse (spares_keyword? h hw)
  have hzone : Spares tail fun s => (blanks? s).bind (phrase? ["TIME", "ZONE"]) := by
    refine (spares_phrase? h (by decide) (by decide)).blanks rfl ?_
    have hnone := h.keyword?_later (v := "TIME") (by decide)
    simp only [phrase?, hnone]
    rfl
  have hwords : Spares tail fun s => (blanks? s).bind fun s =>
      (keyword? "WITHOUT" s <|> keyword? "WITH" s).bind fun s =>
        (blanks? s).bind (phrase? ["TIME", "ZONE"]) := by
    refine ((heither (by decide) (by decide)).bind hzone).blanks rfl ?_
    have hwithout := h.keyword?_later (v := "WITHOUT") (by decide)
    have hwith := h.keyword?_later (v := "WITH") (by decide)
    simp only [hwithout, hwith]
    rfl
  refine (heither (by decide) (by decide)).bind fun s => ?_
  simp only [(spares_precision? h).optional]
  exact hwords _

theorem spares_typeWord? : Spares tail typeWord? := by
  intro s
  cases s with
  | nil =>
    cases tail with
    | nil => rfl
    | cons c t =>
      have hspace : isNameStart ' ' = false := by decide
      simp [typeWord?, h.head? rfl, hspace]
  | cons c s =>
    rw [List.cons_append, typeWord?, typeWord?, h.dropWhile (p := isTypePart) (by decide)]
    split <;> rfl

theorem spares_simpleType? : Spares tail simpleType? := by
  have hsecond : Spares tail fun t => (mark? '.' t).bind typeWord? :=
    (spares_mark? h (by decide)).bind (spares_typeWord? h)
  refine (spares_typeWord? h).bind fun s => ?_
  exact congrArg some (hsecond.optional s)

theorem spares_typeName? : Spares tail typeName? :=
  (spares_phrase? h (by decide) (by decide)).orElse
    ((spares_phrase? h (by decide) (by decide)).orElse
      ((spares_phrase? h (by decide) (by decide)).orElse
        ((spares_zonedTime? h).orElse (spares_simpleType? h))))

theorem spares_arrayMark? : Spares tail arrayMark? :=
  (spares_behind h (by decide) (by decide)).bind (spares_digits h (by decide) (by decide))

theorem skipArrayMarks_append (s : Text) :
    skipArrayMarks (s ++ tail) = skipArrayMarks s ++ tail := by
  fun_induction skipArrayMarks s with
  | case1 s r hr ih => rw [skipArrayMarks_eq, spares_arrayMark? h s, hr, ← ih]; rfl
  | case2 s hs => rw [skipArrayMarks_eq, spares_arrayMark? h s, hs]; rfl

/-- What follows the words of a type does not begin parameters that the type alone would lack: an
opening parenthesis would have been left over. -/
theorem parameters_append {named : Text}
    (hnamed : skipArrayMarks (optional (fun t => (parenthesized? t).map Prod.snd) named) = []) :
    optional (fun t => (parenthesized? t).map Prod.snd) (named ++ tail) =
      optional (fun t => (parenthesized? t).map Prod.snd) named ++ tail := by
  have hmark : mark? '(' (skipBlanks (named ++ tail)) =
      (mark? '(' (skipBlanks named)).map (· ++ tail) := spares_behind h (by decide) (by decide) named
  cases hopen : mark? '(' (skipBlanks named) with
  | none =>
    rw [hopen] at hmark
    simp [Sql.optional, parenthesized?, hopen, hmark]
  | some u =>
    have hskip : skipBlanks named = '(' :: u := eq_cons_of_mark? hopen
    rw [hopen] at hmark
    by_cases hclose : ')' ∈ u
    · obtain ⟨inside, r, rfl, hinside⟩ := List.eq_append_cons_of_mem hclose
      have hread : ∀ r, parenthesized? ('(' :: (inside ++ ')' :: r)) = some (inside, r) :=
        parenthesized?_of_not_mem hinside
      have hskip' : skipBlanks (named ++ tail) = '(' :: (inside ++ ')' :: (r ++ tail)) := by
        rw [eq_cons_of_mark? hmark]
        simp
      have hsame : ∀ s, parenthesized? s = parenthesized? (skipBlanks s) := by
        intro s
        rw [parenthesized?, parenthesized?, skipBlanks_skipBlanks]
      rw [Sql.optional, Sql.optional, hsame named, hsame (named ++ tail), hskip, hskip', hread, hread]
      rfl
    · -- Unclosed parameters stay, and they are no array marks.
      have hdrop : u.dropWhile (· ≠ ')') = [] :=
        List.dropWhile_eq_nil_iff.2 fun c hc => decide_eq_true (ne_of_mem_of_not_mem hc hclose)
      have hnone : parenthesized? named = none := by
        simp only [parenthesized?, hopen, hdrop, Option.bind_eq_bind, Option.bind_some]
        rfl
      have harray : arrayMark? named = none := by simp [arrayMark?, hskip, mark?]
      rw [Sql.optional, hnone, skipArrayMarks_eq] at hnamed
      simp only [Option.map_none, Option.getD_none, harray] at hnamed
      rw [hnamed] at hskip
      cases hskip

theorem dataType?_append {t : Text} (ht : dataType? t = some (t, [])) :
    dataType? (t ++ tail) = some (t, tail) := by
  simp only [dataType?, Option.bind_eq_bind, Option.bind_eq_some_iff, Option.pure_def,
    Option.some.injEq, Prod.mk.injEq] at ht
  obtain ⟨named, hnamed, -, hrest⟩ := ht
  have hnamed' : typeName? (t ++ tail) = some (named ++ tail) := by
    rw [spares_typeName? h, hnamed]
    rfl
  simp only [dataType?, hnamed', Option.bind_eq_bind, Option.bind_some, parameters_append h hrest,
    skipArrayMarks_append h, hrest, List.nil_append, Option.pure_def]
  rw [take_of_eq_append rfl]

end

end SchemaDiagram.Declaration
