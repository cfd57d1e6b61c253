import SchemaDiagram.Proofs.Script.Literal

set_option autoImplicit false

namespace SchemaDiagram.Script
open Sql Unicode Text

/-- No comment begins in the text or across its beginning. -/
structure Uncommented (s : Text) : Prop where
  line : Unpaired '-' '-' s
  block : Unpaired '/' '*' s

theorem uncommented_of_ne {s : Text} (h : ∀ c ∈ s, c ≠ '-' ∧ c ≠ '*') : Uncommented s :=
  ⟨unpaired_of_ne fun c hc => (h c hc).1, unpaired_of_ne fun c hc => (h c hc).2⟩

theorem Uncommented.append {s t : Text} (hs : Uncommented s) (ht : Uncommented t) :
    Uncommented (s ++ t) :=
  ⟨hs.line.append ht.line, hs.block.append ht.block⟩

structure Clean (s : Text) : Prop where
  tidy : Tidy s
  uncommented : Uncommented s
  noCreate : Lacks "CREATE" s

theorem clean_of_plain {s : Text} (hs : Plain s) (h : keyword? "CREATE" s ≠ some []) : Clean s where
  tidy := tidy_of_solid hs.1 hs.isBlank
  uncommented := uncommented_of_ne fun c hc =>
    ⟨hs.ne_mark (by decide) c hc, hs.ne_mark (by decide) c hc⟩
  noCreate := lacks_of_word hs.isWordChar h

theorem Name.clean (n : Name) : Clean n.text :=
  clean_of_plain n.plain (n.keyword? (by decide) isCapital_create)

theorem TypeWord.clean (w : TypeWord) : Clean w.text :=
  clean_of_plain w.plain (w.keyword? (by decide) isCapital_create)

theorem Digits.clean (d : Digits) : Clean d.text :=
  clean_of_plain d.plain (d.keyword? isCapital_create)

theorem Literal.clean (l : Literal) : Clean l.text where
  tidy := l.tidy
  uncommented := ⟨l.unpaired (by decide) (by decide) l.noLineMark,
    l.unpaired (by decide) (by decide) l.noBlockMark⟩
  noCreate := l.lacks isCapital_create l.noCreate

theorem Value.clean (v : Value) : Clean v.text := by
  cases v with
  | digits d => exact d.clean
  | literal l => exact l.clean

def closeMarks : Text := ['(', ')', ',']

theorem gap_of_mem_closeMarks {c : Char} (hc : c ∈ closeMarks) : isWordChar c = false := by
  have hall : ∀ m ∈ closeMarks, m ∈ marks := by decide
  exact isWordChar_mark (hall c hc)

theorem clean_mark {c : Char} (hc : c ∈ closeMarks) : Clean [c] := by
  have hall : ∀ m ∈ closeMarks, isBlank m = false ∧ m ≠ '-' ∧ m ≠ '*' := by decide
  obtain ⟨hblank, hmarks⟩ := hall c hc
  exact {
    tidy := tidy_of_solid (List.cons_ne_nil c []) (by simpa using hblank)
    uncommented := uncommented_of_ne (by simpa using hmarks)
    noCreate := lacks_of_gaps isCapital_create (by simpa using gap_of_mem_closeMarks hc) }

namespace Clean
variable {s t : Text} {c : Char}

theorem append (hs : Clean s) (ht : Clean t) (hgap : endsWord t = true) : Clean (s ++ t) where
  tidy := hs.tidy.append ht.tidy
  uncommented := hs.uncommented.append ht.uncommented
  noCreate := by
    cases t with
    | nil => simpa using hs.noCreate
    | cons c t =>
      have hc : isWordChar c = false := by simpa [endsWord] using hgap
      exact (lacks_append_cons hc).2 ⟨hs.noCreate, (lacks_cons isCapital_create hc).1 ht.noCreate⟩

theorem space (hs : Clean s) (ht : Clean t) : Clean (s ++ ' ' :: t) where
  tidy := hs.tidy.space ht.tidy
  uncommented := hs.uncommented.append
    ((uncommented_of_ne (s := [' ']) (by decide)).append ht.uncommented)
  noCreate := (lacks_append_cons isWordChar_space).2 ⟨hs.noCreate, ht.noCreate⟩

theorem cons (hs : Clean s) (hc : c ∈ closeMarks) : Clean (c :: s) where
  tidy := (clean_mark hc).tidy.append hs.tidy
  uncommented := (clean_mark hc).uncommented.append hs.uncommented
  noCreate := (lacks_cons isCapital_create (gap_of_mem_closeMarks hc)).2 hs.noCreate

theorem around (hs : Clean s) (ht : Clean t) (hc : c ∈ closeMarks) : Clean (s ++ c :: t) :=
  hs.append (ht.cons hc) (by simp [endsWord, gap_of_mem_closeMarks hc])

theorem concat (hs : Clean s) (hc : c ∈ closeMarks) : Clean (s ++ [c]) :=
  hs.append (clean_mark hc) (by simp [endsWord, gap_of_mem_closeMarks hc])

theorem group (hs : Clean s) : Clean ('(' :: (s ++ [')'])) :=
  (hs.concat (by decide)).cons (by decide)

theorem call (hs : Clean s) (ht : Clean t) : Clean (s ++ '(' :: (t ++ [')'])) :=
  hs.around (ht.concat (by decide)) (by decide)

end Clean

theorem clean_word (s : Text) (h : Plain s ∧ keyword? "CREATE" s ≠ some []) : Clean s :=
  clean_of_plain h.1 h.2

theorem clean_join_comma {parts : List Text} (hne : parts ≠ []) (h : ∀ p ∈ parts, Clean p) :
    Clean (join ", " parts) := by
  induction parts with
  | nil => exact absurd rfl hne
  | cons p ps ih =>
    have hp := h p List.mem_cons_self
    cases ps with
    | nil => simpa [join, List.intercalate] using hp
    | cons q qs =>
      have hrest := ih (List.cons_ne_nil q qs) fun r hr => h r (List.mem_cons_of_mem p hr)
      have hjoin : join ", " (p :: q :: qs) = (p ++ [',']) ++ ' ' :: join ", " (q :: qs) := by
        rw [join_cons _ _ (List.cons_ne_nil q qs)]
        simp
      rw [hjoin]
      exact (hp.concat (by decide)).space hrest

theorem clean_listText {names : List Name} (h : names ≠ []) : Clean (listText names) := by
  refine clean_join_comma (by simpa [nameTexts] using h) ?_
  intro p hp
  obtain ⟨n, -, rfl⟩ := List.mem_map.1 hp
  exact Name.clean n

theorem clean_group {names : List Name} (h : names ≠ []) : Clean (groupText names) :=
  (clean_listText h).group

theorem level_of_plain {s : Text} (hs : Plain s) : Level s :=
  level_of_flat hs.flat (hs.ne_mark (by decide))

theorem level_space {s : Text} (hs : Level s) : Level (' ' :: s) :=
  (level_of_flat (s := [' ']) (by decide) (by decide)).append hs

namespace Modifier

theorem clean (m : Modifier) : Clean m.text := by
  cases m with
  | primaryKey => exact (clean_word "PRIMARY" (by decide)).space (clean_word "KEY" (by decide))
  | notNull => exact (clean_word "NOT" (by decide)).space (clean_word "NULL" (by decide))
  | unique => exact clean_word "UNIQUE" (by decide)
  | default v => exact (clean_word "DEFAULT" (by decide)).space v.clean
  | references table column =>
    exact (clean_word "REFERENCES" (by decide)).space
      ((Name.clean table).call (Name.clean column))

theorem level (m : Modifier) : Level (' ' :: m.text) := by
  cases m with
  | primaryKey => exact level_of_flat (s := " PRIMARY KEY") (by decide) (by decide)
  | notNull => exact level_of_flat (s := " NOT NULL") (by decide) (by decide)
  | unique => exact level_of_flat (s := " UNIQUE") (by decide) (by decide)
  | default v =>
    have hmark : Level " DEFAULT" := level_of_flat (by decide) (by decide)
    cases v with
    | digits d => exact hmark.append (level_space (level_of_plain d.plain))
    | literal l => exact hmark.append (level_space_literal l)
  | references table column =>
    have hmark : Level " REFERENCES " := level_of_flat (by decide) (by decide)
    exact hmark.append ((level_of_plain table.plain).append (level_group column.plain.flat))

end Modifier

namespace ColumnLine

theorem clean_tail {s : Text} (hs : Clean s) (ms : List Modifier) : Clean (s ++ tail ms) := by
  induction ms generalizing s with
  | nil => simpa [tail] using hs
  | cons m ms ih =>
    have htail : s ++ tail (m :: ms) = (s ++ ' ' :: m.text) ++ tail ms := by simp [tail]
    rw [htail]
    exact ih (hs.space m.clean)

theorem level_tail (ms : List Modifier) : Level (tail ms) := by
  induction ms with
  | nil => exact level_nil
  | cons m ms ih => exact m.level.append ih

end ColumnLine

namespace TypeName

theorem flat_parameters (ds : List Digits) : Flat (join [','] (ds.map Digits.text)) := by
  induction ds with
  | nil => exact nofun
  | cons d ds ih =>
    cases ds with
    | nil => simpa [join, List.intercalate] using d.plain.flat
    | cons e es =>
      rw [List.map_cons, join_cons _ _ (by simp)]
      exact (d.plain.flat.append (by decide)).append ih

theorem clean_parameters (d : Digits) (ds : List Digits) :
    Clean (join [','] ((d :: ds).map Digits.text)) := by
  induction ds generalizing d with
  | nil => simpa [join, List.intercalate] using d.clean
  | cons e es ih =>
    rw [List.map_cons, join_cons _ _ (by simp), List.append_assoc]
    exact d.clean.around (ih e) (by decide)

theorem clean (t : TypeName) : Clean t.text := by
  obtain ⟨w, ds⟩ := t
  cases ds with
  | nil => simpa [text, parameterText] using TypeWord.clean w
  | cons d ds =>
    exact (TypeWord.clean w).call (clean_parameters d ds)

theorem level (t : TypeName) : Level t.text := by
  obtain ⟨w, ds⟩ := t
  cases ds with
  | nil => simpa [text, parameterText] using level_of_plain w.plain
  | cons d ds => exact (level_of_plain w.plain).append (level_group (flat_parameters (d :: ds)))

end TypeName

namespace ColumnLine

theorem clean (c : ColumnLine) : Clean c.text := by
  have hhead := (Name.clean c.name).space c.dataType.clean
  have htext : c.text = (c.name.text ++ ' ' :: c.dataType.text) ++ tail c.modifiers := by
    simp [text]
  rw [htext]
  exact clean_tail hhead c.modifiers

theorem level (c : ColumnLine) : Level c.text :=
  (level_of_plain c.name.plain).append
    (level_space (c.dataType.level.append (level_tail c.modifiers)))

end ColumnLine

namespace Fragment

theorem clean_referenceText (target : Name) {pairs : List (Name × Name)} (h : pairs ≠ []) :
    Clean (referenceText target pairs) := by
  have hcolumns : Clean (groupText (pairs.map (·.1))) := clean_group (by simpa using h)
  have htargets : Clean (groupText (pairs.map (·.2))) := clean_group (by simpa using h)
  have hlast := (clean_word "REFERENCES" (by decide)).space ((Name.clean target).space htargets)
  exact (clean_word "FOREIGN" (by decide)).space
    ((clean_word "KEY" (by decide)).space (hcolumns.space hlast))

theorem level_referenceText (target : Name) (pairs : List (Name × Name)) :
    Level (referenceText target pairs) := by
  have hfirst : Level "FOREIGN KEY " := level_of_flat (by decide) (by decide)
  have hsecond : Level " REFERENCES " := level_of_flat (by decide) (by decide)
  have hcolumns := level_group (flat_listText (pairs.map (·.1)))
  have htargets := level_group (flat_listText (pairs.map (·.2)))
  exact hfirst.append (hcolumns.append (hsecond.append
    ((level_of_plain target.plain).append (level_space htargets))))

theorem clean (f : Fragment) : Clean f.text := by
  cases f with
  | column c => exact c.clean
  | primaryKey columns h =>
    exact (clean_word "PRIMARY" (by decide)).space
      ((clean_word "KEY" (by decide)).space (clean_group h))
  | foreignKey name? target pairs h =>
    cases name? with
    | none => exact clean_referenceText target h
    | some name =>
      exact (clean_word "CONSTRAINT" (by decide)).space
        ((Name.clean name).space (clean_referenceText target h))

theorem level (f : Fragment) : Level f.text := by
  cases f with
  | column c => exact c.level
  | primaryKey columns h =>
    have hwords : Level "PRIMARY KEY " := level_of_flat (by decide) (by decide)
    exact hwords.append (level_group (flat_listText columns))
  | foreignKey name? target pairs h =>
    cases name? with
    | none => exact level_referenceText target pairs
    | some name =>
      have hword : Level "CONSTRAINT " := level_of_flat (by decide) (by decide)
      exact hword.append ((level_of_plain name.plain).append
        (level_space (level_referenceText target pairs)))

end Fragment

end SchemaDiagram.Script
