import SchemaDiagram.Proofs.OnePass
import SchemaDiagram.Proofs.Script.Modifier

set_option autoImplicit false

namespace SchemaDiagram.Script
open Sql Unicode Text

theorem Modifier.not_typeWord (m : Modifier) (rest : Text) :
    keyword? "PRECISION" (m.text ++ rest) = none ∧ keyword? "VARYING" (m.text ++ rest) = none ∧
      keyword? "WITHOUT" (m.text ++ rest) = none ∧ keyword? "WITH" (m.text ++ rest) = none := by
  cases m <;> exact ⟨rfl, rfl, rfl, rfl⟩

theorem Modifier.skipBlanks (m : Modifier) (rest : Text) :
    skipBlanks (' ' :: (m.text ++ rest)) = m.text ++ rest := by
  cases m <;> rfl

theorem Modifier.not_mark (m : Modifier) (rest : Text) :
    mark? '(' (m.text ++ rest) = none ∧ mark? '[' (m.text ++ rest) = none := by
  cases m <;> exact ⟨rfl, rfl⟩

theorem mark?_tail (ms : List Modifier) :
    mark? '(' (skipBlanks (ColumnLine.tail ms)) = none ∧
      mark? '[' (skipBlanks (ColumnLine.tail ms)) = none := by
  cases ms with
  | nil => exact ⟨rfl, rfl⟩
  | cons m ms =>
    have htail : ColumnLine.tail (m :: ms) = ' ' :: (m.text ++ ColumnLine.tail ms) := rfl
    rw [htail, m.skipBlanks]
    exact m.not_mark _

theorem blanks?_tail {ms : List Modifier} {v : Text} (h : blanks? (ColumnLine.tail ms) = some v) :
    ∃ m rest, v = Modifier.text m ++ rest := by
  cases ms with
  | nil => cases h
  | cons m ms =>
    have htail : ColumnLine.tail (m :: ms) = ' ' :: (m.text ++ ColumnLine.tail ms) := rfl
    have hspace : isBlank ' ' = true := by decide
    have hskip := m.skipBlanks (ColumnLine.tail ms)
    rw [htail, blanks?, if_pos hspace] at h
    refine ⟨m, ColumnLine.tail ms, ?_⟩
    rw [← hskip]
    simpa [Sql.skipBlanks, hspace] using h.symm

theorem blanks?_append {u r v : Text} (hu : ∀ c ∈ u, isBlank c = false)
    (h : blanks? (u ++ r) = some v) : u = [] ∧ blanks? r = some v := by
  cases u with
  | nil => exact ⟨rfl, h⟩
  | cons c u => simp [blanks?, hu c List.mem_cons_self] at h

namespace TypeName

theorem parameterText_cons (d : Digits) (ds : List Digits) :
    parameterText (d :: ds) = '(' :: (join [','] ((d :: ds).map Digits.text) ++ [')']) := rfl

def after (t : TypeName) (ms : List Modifier) : Text :=
  parameterText t.parameters ++ ColumnLine.tail ms

theorem head?_after (t : TypeName) (ms : List Modifier) :
    ∀ c, (t.after ms).head? = some c → c ∈ marks := by
  intro c hc
  obtain ⟨w, ds⟩ := t
  cases ds with
  | nil =>
    cases ms with
    | nil => cases hc
    | cons m ms =>
      cases hc
      decide
  | cons d ds =>
    cases hc
    decide

theorem endsWord_after (t : TypeName) (ms : List Modifier) : endsWord (t.after ms) = true := by
  cases h : t.after ms with
  | nil => rfl
  | cons c s => simp [endsWord, isWordChar_mark (t.head?_after ms c (by simp [h]))]

theorem blanks?_after {t : TypeName} {ms : List Modifier} {v : Text}
    (h : blanks? (t.after ms) = some v) : ∃ m rest, v = Modifier.text m ++ rest := by
  obtain ⟨w, ds⟩ := t
  cases ds with
  | nil => exact blanks?_tail h
  | cons d ds => cases h

theorem phrase?_eq_none (t : TypeName) (ms : List Modifier) (first : Text) {second : Text}
    (hfirst : IsCapital first)
    (hsecond : ∀ (m : Modifier) (rest : Text), keyword? second (m.text ++ rest) = none) :
    phrase? [first, second] (t.word.text ++ t.after ms) = none := by
  have happend := keyword?_append hfirst.2 (t.endsWord_after ms) t.word.text
  cases hu : keyword? first t.word.text with
  | none =>
    rw [hu] at happend
    simp [phrase?, happend]
  | some u =>
    have hblank : ∀ c ∈ u, isBlank c = false :=
      fun c hc => t.word.plain.isBlank c ((keyword?_suffix hu).1.mem hc)
    rw [hu, Option.map_some] at happend
    cases hv : blanks? (u ++ t.after ms) with
    | none => simp [phrase?, happend, hv]
    | some v =>
      obtain ⟨m, rest, rfl⟩ := blanks?_after (blanks?_append hblank hv).2
      simp [phrase?, happend, hv, hsecond]

theorem isNameDigit_of_isDigit (d : Digits) : ∀ c ∈ d.text, isNameDigit c = true := by
  intro c hc
  obtain ⟨-, -, -, -, -, hdigit⟩ := isAsciiPart_classes (d.plain.2 c hc)
  exact hdigit (d.isNumber c hc)

theorem dropWhile_digits (d : Digits) {c : Char} (hc : c ∈ marks) (s : Text) :
    (d.text ++ c :: s).dropWhile isNameDigit = c :: s := by
  obtain ⟨-, -, -, hdigit⟩ := mark_classes hc
  rw [List.dropWhile_append_of_pos (isNameDigit_of_isDigit d)]
  simp [hdigit]

theorem precision?_digits (d : Digits) (s : Text) :
    precision? ('(' :: (d.text ++ ')' :: s)) = some s := by
  have hopen : mark? '(' (skipBlanks ('(' :: (d.text ++ ')' :: s))) = some (d.text ++ ')' :: s) :=
    rfl
  have hclose : mark? ')' (skipBlanks (')' :: s)) = some s := rfl
  have hlength : (')' :: s).length < (d.text ++ ')' :: s).length := by
    have hpos := List.length_pos_iff.2 d.nonempty
    rw [List.length_append]
    omega
  simp only [precision?, hopen, Option.bind_eq_bind, Option.bind_some, d.plain.skipBlanks,
    dropWhile_digits d (c := ')') (by decide), if_pos hlength, hclose]

theorem precision?_comma (d : Digits) (s : Text) :
    precision? ('(' :: (d.text ++ ',' :: s)) = none := by
  have hopen : mark? '(' (skipBlanks ('(' :: (d.text ++ ',' :: s))) = some (d.text ++ ',' :: s) :=
    rfl
  have hclose : mark? ')' (skipBlanks (',' :: s)) = none := rfl
  simp only [precision?, hopen, Option.bind_eq_bind, Option.bind_some, d.plain.skipBlanks,
    dropWhile_digits d (c := ',') (by decide), hclose, ite_self]

/-- Parameters are taken for a precision only if there is one of them. -/
theorem blanks?_precision {t : TypeName} {ms : List Modifier} {v : Text}
    (h : blanks? (Sql.optional precision? (t.after ms)) = some v) :
    ∃ m rest, v = Modifier.text m ++ rest := by
  obtain ⟨w, ds⟩ := t
  match ds with
  | [] =>
    have hmark : mark? '(' (skipBlanks (after ⟨w, []⟩ ms)) = none := (mark?_tail ms).1
    have hnone : precision? (after ⟨w, []⟩ ms) = none := by simp [precision?, hmark]
    rw [Sql.optional, hnone] at h
    exact blanks?_tail h
  | [d] =>
    have hafter : after ⟨w, [d]⟩ ms = '(' :: (d.text ++ ')' :: ColumnLine.tail ms) := by
      simp [after, parameterText_cons, join, List.intercalate]
    rw [Sql.optional, hafter, precision?_digits] at h
    exact blanks?_tail h
  | d :: e :: es =>
    have hafter : after ⟨w, d :: e :: es⟩ ms = '(' :: (d.text ++
        ',' :: (join [','] ((e :: es).map Digits.text) ++ ')' :: ColumnLine.tail ms)) := by
      rw [after, parameterText_cons, List.map_cons, join_cons _ _ (by simp)]
      simp
    rw [Sql.optional, hafter, precision?_comma] at h
    cases h

theorem zonedTime?_eq_none (t : TypeName) (ms : List Modifier) :
    zonedTime? (t.word.text ++ t.after ms) = none := by
  have hends := t.endsWord_after ms
  have hword : ∀ w u : Text, keyword? w t.word.text = some u →
      ∀ c ∈ u, c ∈ t.word.text := fun w u hu c hc => (keyword?_suffix hu).1.mem hc
  -- Both words leave an end of the type's word, and it has to be empty for a blank to follow.
  have hrest : ∀ r, (keyword? "TIMESTAMP" (t.word.text ++ t.after ms) <|>
      keyword? "TIME" (t.word.text ++ t.after ms)) = some r →
      ∃ u, (∀ c ∈ u, c ∈ t.word.text) ∧ r = u ++ t.after ms := by
    intro r hr
    rw [keyword?_append (by decide) hends, keyword?_append (by decide) hends] at hr
    simp only [Option.orElse_eq_orElse, Option.orElse_eq_or, Option.or_eq_some_iff,
      Option.map_eq_some_iff] at hr
    rcases hr with ⟨u, hu, rfl⟩ | ⟨-, u, hu, rfl⟩
    · exact ⟨u, hword _ u hu, rfl⟩
    · exact ⟨u, hword _ u hu, rfl⟩
  cases hzoned : zonedTime? (t.word.text ++ t.after ms) with
  | none => rfl
  | some z =>
    simp only [zonedTime?, Option.bind_eq_bind, Option.bind_eq_some_iff] at hzoned
    obtain ⟨r, hr, v, hv, x, hx, -⟩ := hzoned
    obtain ⟨u, hu, rfl⟩ := hrest r hr
    have hnot : ∃ m rest, v = Modifier.text m ++ rest := by
      cases u with
      | nil => exact blanks?_precision hv
      | cons c u =>
        have hblank := t.word.plain.isBlank c (hu c List.mem_cons_self)
        have hparen := t.word.plain.ne_mark (m := '(') (by decide) c (hu c List.mem_cons_self)
        have hnone : precision? (c :: u ++ t.after ms) = none := by
          simp [precision?, Sql.skipBlanks, hblank, mark?, hparen]
        rw [Sql.optional, hnone] at hv
        simp [blanks?, hblank] at hv
    obtain ⟨m, rest, rfl⟩ := hnot
    obtain ⟨-, -, hwithout, hwith⟩ := m.not_typeWord rest
    rw [hwithout, hwith] at hx
    cases hx

theorem simpleType?_word (t : TypeName) (ms : List Modifier) :
    simpleType? (t.word.text ++ t.after ms) = some (t.after ms) := by
  obtain ⟨c, s, hs, hstart, -, hparts⟩ := t.word.exists_cons
  have htype : ∀ d ∈ s, isTypePart d = true :=
    fun d hd => (isAsciiPart_classes (hparts d hd)).1.2.2
  have hdrop : (s ++ t.after ms).dropWhile isTypePart = t.after ms := by
    rw [List.dropWhile_append_of_pos htype]
    cases hafter : t.after ms with
    | nil => rfl
    | cons d r =>
      have hmark := mark_classes (t.head?_after ms d (by simp [hafter]))
      simp [hmark.2.2.1]
  have hword : typeWord? (t.word.text ++ t.after ms) = some (t.after ms) := by
    rw [hs, List.cons_append, typeWord?, if_pos hstart, hdrop]
  have hpoint : mark? '.' (t.after ms) = none := by
    obtain ⟨w, ds⟩ := t
    cases ds with
    | nil =>
      cases ms with
      | nil => rfl
      | cons m ms => rfl
    | cons d ds => rfl
  simp [simpleType?, hword, Sql.optional, hpoint]

theorem typeName?_word (t : TypeName) (ms : List Modifier) :
    typeName? (t.word.text ++ t.after ms) = some (t.after ms) := by
  have hdouble := t.phrase?_eq_none ms "DOUBLE" (by decide)
    fun m rest => (m.not_typeWord rest).1
  have hcharacter := t.phrase?_eq_none ms "CHARACTER" (by decide)
    fun m rest => (m.not_typeWord rest).2.1
  have hbit := t.phrase?_eq_none ms "BIT" (by decide)
    fun m rest => (m.not_typeWord rest).2.1
  rw [typeName?, hdouble, hcharacter, hbit, t.zonedTime?_eq_none, t.simpleType?_word]
  rfl

theorem skipArrayMarks_tail (ms : List Modifier) :
    skipArrayMarks (ColumnLine.tail ms) = ColumnLine.tail ms := by
  have hnone : arrayMark? (ColumnLine.tail ms) = none := by
    simp [arrayMark?, (mark?_tail ms).2]
  rw [skipArrayMarks]
  split
  · rename_i r hr
    rw [hnone] at hr
    cases hr
  · rfl

theorem dataType?_text (t : TypeName) (ms : List Modifier) :
    dataType? (t.text ++ ColumnLine.tail ms) = some (t.text, ColumnLine.tail ms) := by
  have hsplit : t.text ++ ColumnLine.tail ms = t.word.text ++ t.after ms := by
    rw [text, after, List.append_assoc]
  have hparameters : Sql.optional (fun s => (parenthesized? s).map Prod.snd) (t.after ms) =
      ColumnLine.tail ms := by
    obtain ⟨w, ds⟩ := t
    cases ds with
    | nil =>
      have hnone : parenthesized? (after ⟨w, []⟩ ms) = none := by
        have hmark : mark? '(' (Sql.skipBlanks (after ⟨w, []⟩ ms)) = none := (mark?_tail ms).1
        simp [parenthesized?, hmark]
      rw [Sql.optional, hnone]
      rfl
    | cons d ds =>
      have hsome := parenthesized?_of_flat (flat_parameters (d :: ds)) (ColumnLine.tail ms)
      have hafter : after ⟨w, d :: ds⟩ ms =
          '(' :: (join [','] ((d :: ds).map Digits.text) ++ [')']) ++ ColumnLine.tail ms := rfl
      rw [Sql.optional, hafter, hsome]
      rfl
  have hnamed : typeName? (t.text ++ ColumnLine.tail ms) = some (t.after ms) := by
    rw [hsplit, t.typeName?_word]
  simp [dataType?, hnamed, hparameters, skipArrayMarks_tail]

end TypeName

namespace ColumnLine

theorem columnHead?_text (c : ColumnLine) :
    columnHead? c.text = some (c.name.text, c.dataType.text, tail c.modifiers) := by
  have hname := c.name.name? (c := ' ') (by decide) (c.dataType.text ++ tail c.modifiers)
  have hblanks : blanks? (' ' :: (c.dataType.text ++ tail c.modifiers)) =
      some (c.dataType.text ++ tail c.modifiers) := by
    rw [TypeName.text, List.append_assoc]
    exact c.dataType.word.plain.blanks? _
  simp [columnHead?, text, hname, hblanks, c.dataType.dataType?_text,
    normalizeName_of_plain c.name.plain]

def ownColumn (c : ColumnLine) : Column where
  name := c.name.text
  dataType := c.dataType.text
  isPrimaryKey := c.isKey
  isNotNull := c.modifiers.any Modifier.isNotNull
  default? := c.modifiers.findSome? Modifier.default?
  constraints := if c.modifiers.any Modifier.isUnique then ["UNIQUE"] else []

theorem ofFragment?_text (c : ColumnLine) :
    ColumnDeclaration.ofFragment? c.text = some ⟨c.ownColumn, c.reference?⟩ := by
  have htrim : Text.trim c.text = c.text := trim_of_tidy c.clean.tidy.tidyFrom
  simp only [ColumnDeclaration.ofFragment?, htrim, c.columnHead?_text, Option.bind_eq_bind,
    Option.bind_some, mask_tail, isPrimaryKey_spaced, isNotNull_spaced, isUnique_spaced,
    defaultValue?_tail, checkClause?_tail, inlineReference?_tail, Option.toList_none,
    List.append_nil]
  rfl

end ColumnLine

end SchemaDiagram.Script
