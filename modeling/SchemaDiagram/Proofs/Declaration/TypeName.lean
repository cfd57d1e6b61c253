import SchemaDiagram.Proofs.Clause
import SchemaDiagram.Proofs.Declaration.Word

/-!
Printed types. The spellings with several words are tried before the single word, and parameters may
look like a precision, so it is the word behind a type that keeps the longer spellings away from a
shorter one: no modifier begins with `PRECISION`, `VARYING`, `WITH` or `WITHOUT`.
-/

set_option autoImplicit false

namespace SchemaDiagram.Declaration
open Sql Unicode Text

theorem not_isTypePart_of_isBlank {c : Char} (h : isBlank c = true) : isTypePart c = false :=
  of_isBlank (P := fun c => isTypePart c = false) (by decide +kernel) h

theorem not_isNameDigit_of_isBlank {c : Char} (h : isBlank c = true) : isNameDigit c = false :=
  of_isBlank (P := fun c => isNameDigit c = false) (by decide +kernel) h

theorem isTypePart_marks : isTypePart '(' = false ∧ isTypePart '[' = false ∧
    isTypePart ' ' = false := by decide

theorem isNameDigit_marks : isNameDigit '(' = false ∧ isNameDigit ')' = false ∧
    isNameDigit ']' = false := by decide

theorem exists_of_typeWord? {w : Text} (h : typeWord? w = some []) :
    ∃ c r, w = c :: r ∧ isNameStart c = true ∧ ∀ d ∈ r, isTypePart d = true := by
  cases w with
  | nil => cases h
  | cons c r =>
    rw [typeWord?] at h
    split at h
    · rename_i hc
      exact ⟨c, r, rfl, hc, List.dropWhile_eq_nil_iff.1 (Option.some.inj h)⟩
    · cases h

theorem isTypePart_of_typeWord? {w : Text} (h : typeWord? w = some []) :
    ∀ c ∈ w, isTypePart c = true := by
  obtain ⟨c, r, rfl, hc, hr⟩ := exists_of_typeWord? h
  exact List.forall_mem_cons.2 ⟨by simp [isTypePart, hc], hr⟩

def starts : List Keyword := [.primary, .not, .unique, .default, .check, .references, .generated]

/-- Nothing, or a space and the first word of a modifier. -/
def Follows (k : Casing) (tail : Text) : Prop :=
  tail = [] ∨ ∃ w ∈ starts, ∃ rest, endsWord rest = true ∧ tail = ' ' :: (k.spell w.text ++ rest)

theorem endsWord_spaced (ts : List Text) : endsWord (spaced ts) = true := by
  cases ts with
  | nil => rfl
  | cons t ts => simp [spaced, endsWord]

theorem Modifier.exists_pieces (m : Modifier) : ∃ w ∈ starts, ∃ ps, m.pieces = .word w :: ps := by
  cases m <;> exact ⟨_, by decide, _, rfl⟩

theorem follows_pieces (k : Casing) (ms : List Modifier) :
    Follows k (spacedPieces k (ms.flatMap Modifier.pieces)) := by
  cases ms with
  | nil => exact .inl rfl
  | cons m ms =>
    obtain ⟨w, hw, ps, hps⟩ := m.exists_pieces
    refine .inr ⟨w, hw, spacedPieces k (ps ++ ms.flatMap Modifier.pieces), endsWord_spaced _, ?_⟩
    rw [List.flatMap_cons, hps]
    rfl

section
variable {k : Casing} {tail : Text} (h : Follows k tail)
include h

theorem Follows.mark? {m : Char} (hm : Script.isAsciiPart m = false) :
    mark? m (skipBlanks tail) = none := by
  rcases h with rfl | ⟨w, -, rest, -, rfl⟩
  · rfl
  · have hplain := k.plain_spell w.isCapital
    obtain ⟨c, s, hs⟩ := List.exists_cons_of_ne_nil hplain.1
    have hpart := hplain.2 c (by simp [hs])
    have hc : c ≠ m := by
      rintro rfl
      rw [hm] at hpart
      cases hpart
    rw [skipBlanks_blank (by decide), hplain.skipBlanks, hs, List.cons_append, Sql.mark?, if_neg hc]

theorem Follows.keyword? {v : Text} (hv : blanks? tail = some v) :
    keyword? "PRECISION" v = none ∧ keyword? "VARYING" v = none ∧ keyword? "WITHOUT" v = none ∧
      keyword? "WITH" v = none := by
  rcases h with rfl | ⟨w, hw, rest, hrest, rfl⟩
  · cases hv
  · have hstart : ∀ w ∈ starts, Sql.keyword? "PRECISION" w.text = none ∧
        Sql.keyword? "VARYING" w.text = none ∧ Sql.keyword? "WITHOUT" w.text = none ∧
        Sql.keyword? "WITH" w.text = none := by decide
    rw [(k.plain_spell w.isCapital).blanks?] at hv
    cases hv
    rw [k.keyword?_spell_append (by decide) w.isCapital hrest,
      k.keyword?_spell_append (by decide) w.isCapital hrest,
      k.keyword?_spell_append (by decide) w.isCapital hrest,
      k.keyword?_spell_append (by decide) w.isCapital hrest]
    obtain ⟨hprecision, hvarying, hwithout, hwith⟩ := hstart w hw
    rw [hprecision, hvarying, hwithout, hwith]
    exact ⟨rfl, rfl, rfl, rfl⟩

theorem Follows.head? {c : Char} (hc : tail.head? = some c) : c = ' ' := by
  rcases h with rfl | ⟨w, -, rest, -, rfl⟩
  · cases hc
  · exact (Option.some.inj hc).symm

end

theorem Digits.skipBlanks (d : Digits) {c : Char} (hc : isBlank c = false) (r : Text) :
    skipBlanks (d.text ++ c :: r) = d.text ++ c :: r := by
  cases hd : d.text with
  | nil => exact skipBlanks_solid hc r
  | cons e s =>
    refine skipBlanks_solid ?_ _
    by_contra hblank
    have hnumber := d.isNumber e (by simp [hd])
    rw [not_isNameDigit_of_isBlank (by simpa using hblank)] at hnumber
    cases hnumber

theorem Digits.dropWhile (d : Digits) {c : Char} (hc : isNameDigit c = false) (r : Text) :
    (d.text ++ c :: r).dropWhile isNameDigit = c :: r := by
  rw [List.dropWhile_append_of_pos d.isNumber]
  simp [hc]

theorem precision?_digits (d : {d : Digits // d.text ≠ []}) (r : Text) :
    precision? ('(' :: (d.1.text ++ ')' :: r)) = some r := by
  have hopen : mark? '(' (skipBlanks ('(' :: (d.1.text ++ ')' :: r))) =
      some (d.1.text ++ ')' :: r) := rfl
  have hclose : mark? ')' (skipBlanks (')' :: r)) = some r := rfl
  have hlength : (')' :: r).length < (d.1.text ++ ')' :: r).length := by
    have hpos := List.length_pos_iff.2 d.2
    rw [List.length_append]
    omega
  simp only [precision?, hopen, Option.bind_eq_bind, Option.bind_some,
    d.1.skipBlanks (c := ')') (by decide), d.1.dropWhile isNameDigit_marks.2.1, if_pos hlength, hclose]

theorem precision?_of_isTypePart {c : Char} (hc : isTypePart c = true) (s : Text) :
    precision? (c :: s) = none := by
  have hblank : isBlank c = false := by
    cases hblank : isBlank c with
    | false => rfl
    | true => exact absurd hc (by simp [not_isTypePart_of_isBlank hblank])
  have hopen : c ≠ '(' := by
    rintro rfl
    simp [isTypePart_marks.1] at hc
  rw [precision?, skipBlanks_solid hblank, mark?, if_neg hopen]
  rfl

theorem eq_of_precision? {s r v : Text} (hs : ')' ∉ s)
    (h : precision? ('(' :: (s ++ ')' :: r)) = some v) : v = r := by
  have hopen : mark? '(' (skipBlanks ('(' :: (s ++ ')' :: r))) = some (s ++ ')' :: r) := rfl
  have hblank : isBlank ')' = false := by decide
  simp only [precision?, hopen, Option.bind_eq_bind, Option.bind_some] at h
  simp only [skipBlanks, dropWhile_append_mark hblank,
    dropWhile_append_mark isNameDigit_marks.2.1] at h
  split at h
  · -- What was not dropped of the inside is still in front of the parenthesis.
    have hnot : ')' ∉ ((s.dropWhile isBlank).dropWhile isNameDigit).dropWhile isBlank :=
      fun hmem => hs (List.dropWhile_subset _ (List.dropWhile_subset _ (List.dropWhile_subset _ hmem)))
    generalize ((s.dropWhile isBlank).dropWhile isNameDigit).dropWhile isBlank = u at h hnot
    cases u with
    | nil => exact (Option.some.inj h).symm
    | cons c u =>
      have hc : c ≠ ')' := (ne_of_mem_of_not_mem List.mem_cons_self hnot)
      rw [List.cons_append, mark?, if_neg hc] at h
      cases h
  · cases h

theorem arrayMark?_digits (d : Digits) (r : Text) :
    arrayMark? ('[' :: (d.text ++ ']' :: r)) = some r := by
  have hopen : mark? '[' (skipBlanks ('[' :: (d.text ++ ']' :: r))) = some (d.text ++ ']' :: r) := rfl
  have hclose : mark? ']' (skipBlanks (']' :: r)) = some r := rfl
  simp only [arrayMark?, hopen, Option.bind_eq_bind, Option.bind_some,
    d.skipBlanks (c := ']') (by decide), d.dropWhile isNameDigit_marks.2.2, hclose]

theorem skipArrayMarks_arrays {k : Casing} {tail : Text} (h : Follows k tail) (ds : List Digits) :
    skipArrayMarks (ColumnType.arrayText ds ++ tail) = tail := by
  induction ds with
  | nil =>
    have hnone : arrayMark? tail = none := by simp [arrayMark?, h.mark? (m := '[') (by decide)]
    rw [skipArrayMarks_eq, ColumnType.arrayText, List.flatMap_nil, List.nil_append, hnone]
  | cons d ds ih =>
    have htext : ColumnType.arrayText (d :: ds) ++ tail =
        '[' :: (d.text ++ ']' :: (ColumnType.arrayText ds ++ tail)) := by
      simp [ColumnType.arrayText]
    rw [htext, skipArrayMarks_eq, arrayMark?_digits]
    exact ih

namespace ColumnType

def behind (parameters? : Option {s : Text // ')' ∉ s}) (arrays : List Digits) (tail : Text) : Text :=
  parameterText parameters? ++ (arrayText arrays ++ tail)

theorem behind_some (s : {s : Text // ')' ∉ s}) (arrays : List Digits) (tail : Text) :
    behind (some s) arrays tail = '(' :: (s.1 ++ ')' :: (arrayText arrays ++ tail)) := by
  simp [behind, parameterText]

theorem blanks?_arrays {tail v : Text} (arrays : List Digits)
    (hv : blanks? (arrayText arrays ++ tail) = some v) :
    blanks? tail = some v := by
  cases arrays with
  | nil => exact hv
  | cons d ds => cases hv

theorem blanks?_behind {tail v : Text} (parameters? : Option {s : Text // ')' ∉ s})
    (arrays : List Digits) (hv : blanks? (behind parameters? arrays tail) = some v) :
    blanks? tail = some v := by
  cases parameters? with
  | none => exact blanks?_arrays arrays hv
  | some s => cases hv

theorem blanks?_word {tail u v : Text} (hu : ∀ c ∈ u, isTypePart c = true)
    (parameters? : Option {s : Text // ')' ∉ s}) (arrays : List Digits)
    (hv : blanks? (u ++ behind parameters? arrays tail) = some v) :
    u = [] ∧ blanks? tail = some v := by
  cases u with
  | nil => exact ⟨rfl, blanks?_behind parameters? arrays hv⟩
  | cons c u =>
    have hc : ¬ isBlank c = true := by
      intro hblank
      have hpart := hu c List.mem_cons_self
      rw [not_isTypePart_of_isBlank hblank] at hpart
      cases hpart
    rw [List.cons_append, blanks?, if_neg hc] at hv
    cases hv

section
variable {k : Casing} {tail : Text} (h : Follows k tail) (parameters? : Option {s : Text // ')' ∉ s})
  (arrays : List Digits)
include h

theorem head?_arrays {c : Char} (hc : (arrayText arrays ++ tail).head? = some c) :
    c = '[' ∨ c = ' ' := by
  cases arrays with
  | nil => exact .inr (h.head? hc)
  | cons d ds => exact .inl (Option.some.inj hc).symm

theorem head?_behind {c : Char} (hc : (behind parameters? arrays tail).head? = some c) :
    c = '(' ∨ c = '[' ∨ c = ' ' := by
  cases parameters? with
  | none => exact .inr (head?_arrays h arrays hc)
  | some s => exact .inl (Option.some.inj hc).symm

theorem endsWord_behind : endsWord (behind parameters? arrays tail) = true := by
  have hmarks : isWordChar '(' = false ∧ isWordChar '[' = false ∧ isWordChar ' ' = false := by
    decide
  cases hbehind : behind parameters? arrays tail with
  | nil => rfl
  | cons c s =>
    rcases head?_behind h parameters? arrays (c := c) (by simp [hbehind]) with rfl | rfl | rfl
    · simp [endsWord, hmarks.1]
    · simp [endsWord, hmarks.2.1]
    · simp [endsWord]

theorem mark?_arrays : mark? '(' (skipBlanks (arrayText arrays ++ tail)) = none := by
  cases arrays with
  | nil => exact h.mark? (by decide)
  | cons d ds => rfl

theorem blanks?_precision {v : Text}
    (hv : blanks? (optional precision? (behind parameters? arrays tail)) = some v) :
    blanks? tail = some v := by
  unfold Sql.optional at hv
  cases hread : precision? (behind parameters? arrays tail) with
  | none =>
    rw [hread] at hv
    exact blanks?_behind parameters? arrays hv
  | some r =>
    rw [hread] at hv
    cases parameters? with
    | none =>
      have hbehind : behind none arrays tail = arrayText arrays ++ tail := rfl
      rw [hbehind, precision?, mark?_arrays h] at hread
      cases hread
    | some s =>
      rw [behind_some] at hread
      rw [eq_of_precision? s.2 hread] at hv
      exact blanks?_arrays arrays hv

theorem parameters_behind :
    optional (fun t => (parenthesized? t).map Prod.snd) (behind parameters? arrays tail) =
      arrayText arrays ++ tail := by
  cases parameters? with
  | none =>
    have hnone : parenthesized? (arrayText arrays ++ tail) = none := by
      simp [parenthesized?, mark?_arrays h]
    have hbehind : behind none arrays tail = arrayText arrays ++ tail := rfl
    rw [Sql.optional, hbehind, hnone]
    rfl
  | some s =>
    rw [Sql.optional, behind_some, parenthesized?_of_not_mem s.2]
    rfl

theorem phrase?_word {w : Text} (hw : ∀ c ∈ w, isTypePart c = true) (first second : Text)
    (hfirst : ∀ c ∈ first, c.isUpper = true)
    (hsecond : ∀ v, blanks? tail = some v → keyword? second v = none) :
    phrase? [first, second] (w ++ behind parameters? arrays tail) = none := by
  rw [phrase?, keyword?_append hfirst (endsWord_behind h parameters? arrays)]
  · cases hu : keyword? first w with
    | none => rfl
    | some u =>
      have hpart : ∀ c ∈ u, isTypePart c = true := fun c hc => hw c ((keyword?_suffix hu).1.mem hc)
      cases hv : blanks? (u ++ behind parameters? arrays tail) with
      | none => simp [hv]
      | some v =>
        have hnone := hsecond v (blanks?_word hpart parameters? arrays hv).2
        simp [hv, phrase?, hnone]
  · exact List.cons_ne_nil _ _

theorem zonedTime?_word {w : Text} (hw : ∀ c ∈ w, isTypePart c = true) :
    zonedTime? (w ++ behind parameters? arrays tail) = none := by
  have hends := endsWord_behind h parameters? arrays
  -- Either word leaves an end of the type's word, which has to be empty for a blank to follow.
  have hrest : ∀ r, (keyword? "TIMESTAMP" (w ++ behind parameters? arrays tail) <|>
      keyword? "TIME" (w ++ behind parameters? arrays tail)) = some r →
      ∃ u, (∀ c ∈ u, isTypePart c = true) ∧ r = u ++ behind parameters? arrays tail := by
    intro r hr
    have hpart : ∀ v u, keyword? v w = some u → ∀ c ∈ u, isTypePart c = true :=
      fun v u hu c hc => hw c ((keyword?_suffix hu).1.mem hc)
    rw [keyword?_append (by decide) hends, keyword?_append (by decide) hends] at hr
    simp only [Option.orElse_eq_orElse, Option.orElse_eq_or, Option.or_eq_some_iff,
      Option.map_eq_some_iff] at hr
    rcases hr with ⟨u, hu, rfl⟩ | ⟨-, u, hu, rfl⟩
    · exact ⟨u, hpart _ u hu, rfl⟩
    · exact ⟨u, hpart _ u hu, rfl⟩
  cases hzoned : zonedTime? (w ++ behind parameters? arrays tail) with
  | none => rfl
  | some z =>
    simp only [zonedTime?, Option.bind_eq_bind, Option.bind_eq_some_iff] at hzoned
    obtain ⟨r, hr, v, hv, x, hx, -⟩ := hzoned
    obtain ⟨u, hu, rfl⟩ := hrest r hr
    have htail : blanks? tail = some v := by
      cases u with
      | nil => exact blanks?_precision h parameters? arrays hv
      | cons c u =>
        rw [Sql.optional, List.cons_append, precision?_of_isTypePart (hu c List.mem_cons_self)] at hv
        exact (blanks?_word hu parameters? arrays hv).2
    obtain ⟨-, -, hwithout, hwith⟩ := h.keyword? htail
    rw [hwithout, hwith] at hx
    cases hx

theorem simpleType?_word {w : Text} (hword : typeWord? w = some []) :
    simpleType? (w ++ behind parameters? arrays tail) = some (behind parameters? arrays tail) := by
  obtain ⟨c, r, rfl, hc, hparts⟩ := exists_of_typeWord? hword
  have hdrop : (r ++ behind parameters? arrays tail).dropWhile isTypePart =
      behind parameters? arrays tail := by
    rw [List.dropWhile_append_of_pos hparts]
    cases hbehind : behind parameters? arrays tail with
    | nil => rfl
    | cons d s =>
      have hd : isTypePart d = false := by
        rcases head?_behind h parameters? arrays (c := d) (by simp [hbehind]) with rfl | rfl | rfl
        · exact isTypePart_marks.1
        · exact isTypePart_marks.2.1
        · exact isTypePart_marks.2.2
      simp [hd]
  have hpoint : mark? '.' (behind parameters? arrays tail) = none := by
    cases hbehind : behind parameters? arrays tail with
    | nil => rfl
    | cons d s =>
      rcases head?_behind h parameters? arrays (c := d) (by simp [hbehind]) with rfl | rfl | rfl
      · rfl
      · rfl
      · rfl
  rw [simpleType?, List.cons_append, typeWord?, if_pos hc, hdrop]
  simp [Sql.optional, hpoint]

end

end ColumnType

theorem endsWord_space (s : Text) : endsWord (' ' :: s) = true := by simp [endsWord]

section
variable (k : Casing)

theorem phrase?_spell {first second : Text} (hfirst : IsCapital first) (hsecond : IsCapital second)
    (rest : Text) :
    phrase? [first, second] (k.spell first ++ ' ' :: (k.spell second ++ rest)) = some rest := by
  have hblanks := (k.plain_spell hsecond).blanks? rest
  simp [phrase?, k.keyword?_spell_self hfirst.2, hblanks, k.keyword?_spell_self hsecond.2]

theorem phrase?_spell_none {first w : Text} (hfirst : ∀ c ∈ first, c.isUpper = true)
    (hw : IsCapital w) (hnone : keyword? first w = none) (second : Text) {rest : Text}
    (hrest : endsWord rest = true) : phrase? [first, second] (k.spell w ++ rest) = none := by
  simp [phrase?, k.keyword?_spell_append hfirst hw hrest, hnone]

theorem keyword?_spell_either (long short : Text) (hlong : IsCapital long)
    (hshort : IsCapital short) (hnone : keyword? long short = none) (b : Bool) {rest : Text}
    (hrest : endsWord rest = true) :
    (keyword? long (k.spell (if b then long else short) ++ rest) <|>
      keyword? short (k.spell (if b then long else short) ++ rest)) = some rest := by
  cases b with
  | true =>
    rw [if_pos rfl, k.keyword?_spell_self hlong.2]
    rfl
  | false =>
    rw [if_neg Bool.false_ne_true, k.keyword?_spell_append hlong.2 hshort hrest, hnone,
      k.keyword?_spell_self hshort.2]
    rfl

end

theorem optional_precision (p? : Option {d : Digits // d.text ≠ []}) {s : Text}
    (hs : mark? '(' (skipBlanks s) = none) :
    optional precision? (TypeWords.precisionText p? ++ s) = s := by
  cases p? with
  | none =>
    have hnone : precision? s = none := by simp [precision?, hs]
    rw [Sql.optional, TypeWords.precisionText, List.nil_append, hnone]
    rfl
  | some d =>
    have htext : TypeWords.precisionText (some d) ++ s = '(' :: (d.1.text ++ ')' :: s) := by
      simp [TypeWords.precisionText]
    rw [Sql.optional, htext, precision?_digits]
    rfl

theorem endsWord_precision (p? : Option {d : Digits // d.text ≠ []}) (s : Text) :
    endsWord (TypeWords.precisionText p? ++ ' ' :: s) = true := by
  have hparen : isWordChar '(' = false := by decide
  cases p? with
  | none => exact endsWord_space s
  | some d => simp [TypeWords.precisionText, endsWord, hparen]

theorem TypeWords.zoned_text (k : Casing) (stamp : Bool) (p? : Option {d : Digits // d.text ≠ []})
    (without : Bool) (rest : Text) :
    (zoned stamp p? without).text k ++ rest =
      k.spell (if stamp then "TIMESTAMP" else "TIME") ++ (precisionText p? ++
        ' ' :: (k.spell (if without then "WITHOUT" else "WITH") ++
          ' ' :: (k.spell "TIME" ++ ' ' :: (k.spell "ZONE" ++ rest)))) := by
  simp only [text, List.append_assoc, List.cons_append]

theorem zonedTime?_spell (k : Casing) (stamp : Bool) (p? : Option {d : Digits // d.text ≠ []})
    (without : Bool) (rest : Text) :
    zonedTime? ((TypeWords.zoned stamp p? without).text k ++ rest) = some rest := by
  have hword : IsCapital (if without then "WITHOUT" else "WITH") := by cases without <;> decide
  have hplain := k.plain_spell hword
  obtain ⟨c, s, hs⟩ := List.exists_cons_of_ne_nil hplain.1
  have hc : c ≠ '(' := hplain.ne_mark (by decide) c (hs ▸ List.mem_cons_self)
  have hzone : phrase? ["TIME", "ZONE"] (k.spell "TIME" ++ ' ' :: (k.spell "ZONE" ++ rest)) =
      some rest := phrase?_spell k (by decide) (by decide) rest
  have hblanks := (k.plain_spell (w := "TIME") (by decide)).blanks? (' ' :: (k.spell "ZONE" ++ rest))
  rw [TypeWords.zoned_text]
  generalize k.spell "TIME" ++ ' ' :: (k.spell "ZONE" ++ rest) = zone at hzone hblanks
  have hfirst := keyword?_spell_either k "TIMESTAMP" "TIME" (by decide) (by decide) rfl stamp
    (endsWord_precision p? (k.spell (if without then "WITHOUT" else "WITH") ++ ' ' :: zone))
  have hsecond := keyword?_spell_either k "WITHOUT" "WITH" (by decide) (by decide) rfl without
    (endsWord_space zone)
  have hopen : mark? '(' (skipBlanks
      (' ' :: (k.spell (if without then "WITHOUT" else "WITH") ++ ' ' :: zone))) = none := by
    rw [skipBlanks_blank (by decide), hplain.skipBlanks, hs, List.cons_append, mark?, if_neg hc]
  have hgap : blanks? (optional precision? (TypeWords.precisionText p? ++
      ' ' :: (k.spell (if without then "WITHOUT" else "WITH") ++ ' ' :: zone))) =
      some (k.spell (if without then "WITHOUT" else "WITH") ++ ' ' :: zone) := by
    rw [optional_precision p? hopen]
    exact hplain.blanks? _
  simp only [zonedTime?, Option.bind_eq_bind, Option.bind_eq_some_iff]
  exact ⟨_, hfirst, _, hgap, _, hsecond, _, hblanks, hzone⟩

namespace TypeWords
variable {k : Casing} {tail : Text}

theorem typeName?_text (h : Follows k tail) (t : TypeWords)
    (parameters? : Option {s : Text // ')' ∉ s}) (arrays : List Digits) :
    typeName? (t.text k ++ ColumnType.behind parameters? arrays tail) =
      some (ColumnType.behind parameters? arrays tail) := by
  have hends := ColumnType.endsWord_behind h parameters? arrays
  cases t with
  | word text hword =>
    -- The spellings with several words are tried first; what follows the word keeps them away.
    have hparts := isTypePart_of_typeWord? hword
    have hdouble := ColumnType.phrase?_word h parameters? arrays hparts "DOUBLE" "PRECISION"
      (by decide) fun v hv => (h.keyword? hv).1
    have hcharacter := ColumnType.phrase?_word h parameters? arrays hparts "CHARACTER" "VARYING"
      (by decide) fun v hv => (h.keyword? hv).2.1
    have hbit := ColumnType.phrase?_word h parameters? arrays hparts "BIT" "VARYING"
      (by decide) fun v hv => (h.keyword? hv).2.1
    rw [typeName?, TypeWords.text, hdouble, hcharacter, hbit,
      ColumnType.zonedTime?_word h parameters? arrays hparts,
      ColumnType.simpleType?_word h parameters? arrays hword]
    rfl
  | double =>
    rw [typeName?, TypeWords.text, List.append_assoc, List.cons_append,
      phrase?_spell k (by decide) (by decide)]
    rfl
  | characterVarying =>
    rw [typeName?, TypeWords.text, List.append_assoc, List.cons_append,
      phrase?_spell_none k (by decide) (by decide) rfl "PRECISION" (endsWord_space _),
      phrase?_spell k (by decide) (by decide)]
    rfl
  | bitVarying =>
    rw [typeName?, TypeWords.text, List.append_assoc, List.cons_append,
      phrase?_spell_none k (by decide) (by decide) rfl "PRECISION" (endsWord_space _),
      phrase?_spell_none k (by decide) (by decide) rfl "VARYING" (endsWord_space _),
      phrase?_spell k (by decide) (by decide)]
    rfl
  | zoned stamp p? without =>
    have hnone : ∀ first second : Text, (∀ c ∈ first, c.isUpper = true) →
        keyword? first "TIMESTAMP" = none → keyword? first "TIME" = none →
        phrase? [first, second] ((zoned stamp p? without).text k ++
          ColumnType.behind parameters? arrays tail) = none := by
      intro first second hfirst hstamp htime
      rw [zoned_text]
      refine phrase?_spell_none k hfirst ?_ ?_ second (endsWord_precision p? _)
      · cases stamp <;> decide
      · cases stamp with
        | true => exact hstamp
        | false => exact htime
    rw [typeName?, hnone "DOUBLE" "PRECISION" (by decide) rfl rfl,
      hnone "CHARACTER" "VARYING" (by decide) rfl rfl, hnone "BIT" "VARYING" (by decide) rfl rfl,
      zonedTime?_spell]
    rfl

end TypeWords

theorem ColumnType.dataType?_text {k : Casing} {tail : Text} (h : Follows k tail) (t : ColumnType) :
    dataType? (t.text k ++ tail) = some (t.text k, tail) := by
  have hsplit : t.text k ++ tail = t.words.text k ++ behind t.parameters? t.arrays tail := by
    simp [text, behind]
  have hnamed : typeName? (t.text k ++ tail) = some (behind t.parameters? t.arrays tail) := by
    rw [hsplit, TypeWords.typeName?_text h]
  simp [dataType?, hnamed, parameters_behind h, skipArrayMarks_arrays h]

end SchemaDiagram.Declaration
