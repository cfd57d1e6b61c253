import SchemaDiagram.Proofs.Body.Fragment
import SchemaDiagram.Proofs.Declaration.Head

/-!
Names at the beginning of a fragment. Two ends of a word are used here: a clause without a name
begins with a word that ends at a word boundary, while `CONSTRAINT`, `PRIMARY` and `FOREIGN` need a
blank behind them and the words of an unsupported clause no character of a name. A name that begins
like a keyword is a column except where only the boundary is asked for.
-/

set_option autoImplicit false

namespace SchemaDiagram.Sql
open Text Unicode

variable {w t : Text}

def openingWords : List Text := ["UNIQUE", "CHECK", "EXCLUDE"]

def reservedWords : List Text :=
  ["CONSTRAINT", "LIKE", "UNIQUE", "CHECK", "EXCLUDE", "PRIMARY", "FOREIGN"]

def opensClause (s : Text) : Bool := openingWords.any fun w => (wholePhrase? [w] s).isSome

theorem keyword?_of_gap (hw : IsCapital w) {c : Char} (hc : isWordChar c = false) (s : Text) :
    keyword? w (c :: s) = none := by
  obtain ⟨k, w, rfl⟩ := List.exists_cons_of_ne_nil hw.1
  have hspells := spells_of_not_isWordChar (hw.2 k List.mem_cons_self) hc
  simp [keyword?, hspells]

theorem blanks?_space {s : Text} (hs : skipBlanks s = s) : blanks? (' ' :: s) = some s := by
  rw [blanks?, if_pos isBlank_space, hs]

theorem isSome_wholePhrase?_append (hw : ∀ k ∈ w, k.isUpper = true) (t r : Text) :
    (wholePhrase? [w] (t ++ ' ' :: r)).isSome = (wholePhrase? [w] t).isSome := by
  have hspace : endsWord (' ' :: r) = true := Declaration.endsWord_space r
  have hend : ∀ u, endsWord (u ++ ' ' :: r) = endsWord u := by
    intro u
    cases u with
    | nil => exact hspace
    | cons c u => rfl
  simp only [wholePhrase?, phrase?, keyword?_append hw hspace, Option.bind_eq_bind]
  cases keyword? w t with
  | none => rfl
  | some u =>
    simp only [Option.map_some, Option.bind_some, hend]
    split <;> rfl

theorem opensClause_append (t r : Text) : opensClause (t ++ ' ' :: r) = opensClause t := by
  have hcapital : ∀ w ∈ openingWords, ∀ k ∈ w, k.isUpper = true := by decide
  rw [Bool.eq_iff_iff, opensClause, opensClause, List.any_eq_true, List.any_eq_true]
  refine exists_congr fun w => and_congr_right fun hw => ?_
  rw [isSome_wholePhrase?_append (hcapital w hw)]

theorem clause?_eq_none (h : (keyword? w t).bind blanks? = none) (ws : List Text) :
    clause? (w :: ws) t = none := by
  rw [clause?, Option.bind_eq_bind, ← Option.bind_assoc, h]
  rfl

theorem phrase?_eq_none (h : (keyword? w t).bind blanks? = none) (v : Text) (ws : List Text) :
    phrase? (w :: v :: ws) t = none := by
  rw [phrase?, Option.bind_eq_bind, ← Option.bind_assoc, h]
  · rfl
  · exact List.cons_ne_nil v ws

theorem toLower_ne_capital {k : Char} (hk : k.isUpper = true) :
    ' '.toLower ≠ k.toLower ∧ '"'.toLower ≠ k.toLower := by
  have hall : k.isUpper = true → ' '.toLower ≠ k.toLower ∧ '"'.toLower ≠ k.toLower :=
    Script.of_isAsciiPart
      (P := fun k => k.isUpper = true → ' '.toLower ≠ k.toLower ∧ '"'.toLower ≠ k.toLower)
      (by decide +kernel) (Script.isAsciiPart_of_isUpper hk)
  exact hall hk

theorem exists_append_of_beginsWith (hw : ∀ k ∈ w, k.isUpper = true) {r : Text}
    (h : Text.beginsWith (t ++ ' ' :: r) w = true) :
    ∃ u v, t = u ++ v ∧ u.map Char.toLower = w.map Char.toLower := by
  induction w generalizing t with
  | nil => exact ⟨[], t, rfl, rfl⟩
  | cons k w ih =>
    obtain ⟨hk, hw⟩ := List.forall_mem_cons.1 hw
    cases t with
    | nil =>
      simp only [List.nil_append, Text.beginsWith, Bool.and_eq_true, beq_iff_eq] at h
      exact absurd h.1 (toLower_ne_capital hk).1
    | cons c t =>
      simp only [List.cons_append, Text.beginsWith, Bool.and_eq_true, beq_iff_eq] at h
      obtain ⟨u, v, rfl, hlower⟩ := ih hw h.2
      exact ⟨c :: u, v, rfl, by rw [List.map_cons, List.map_cons, h.1, hlower]⟩

theorem continues_of_isNamePart {c : Char} (hc : isNamePart c = true) :
    (!(isAlphanumeric c || c = '_' || c = '$')) = false := by
  have hiota : isAlphanumeric '\u0345' = true := by decide +kernel
  have hpart : isAlphanumeric c = true ∨ c = '_' ∨ c = '$' := by
    simp only [isNamePart, isNameStart, isNameLetter, isNameNumber, isAlphanumeric, isAlphabetic,
      Bool.or_eq_true, Bool.and_eq_true, decide_eq_true_eq] at hc hiota ⊢
    rcases hc with ((((hletter | hlow) | rfl) | hnumber) | hdollar)
    · exact .inl (.inl (.inl (.inl hletter.1)))
    · exact .inr (.inl hlow)
    · exact .inl hiota
    · exact .inl (.inr hnumber.1)
    · exact .inr (.inr hdollar)
  rcases hpart with h | rfl | rfl
  · simp [h]
  · rfl
  · rfl

/-- A bare name is one of the words where the word is looked for with what follows it. -/
theorem beginsWithWord_bare (hw : IsCapital w) (ht : IsBare t)
    (hne : t.map Char.toLower ≠ w.map Char.toLower) (r : Text) :
    beginsWithWord (t ++ ' ' :: r) w = false := by
  cases hbegins : Text.beginsWith (t ++ ' ' :: r) w with
  | false => rw [beginsWithWord, hbegins, Bool.false_and]
  | true =>
    obtain ⟨u, v, rfl, hlower⟩ := exists_append_of_beginsWith hw.2 hbegins
    have hlength : u.length = w.length := by simpa using congrArg List.length hlower
    cases v with
    | nil => exact absurd (by rwa [List.append_nil]) hne
    | cons c v =>
      have hdrop : (u ++ c :: v ++ ' ' :: r).drop w.length = c :: (v ++ ' ' :: r) := by
        rw [← hlength, List.append_assoc, List.drop_left]
        rfl
      rw [beginsWithWord, hdrop]
      simp only [continues_of_isNamePart (ht c (by simp)), Bool.and_false]

theorem map_toLower_of_keyword? (hw : ∀ k ∈ w, k ≠ 'S' ∧ k ≠ 'K') (hupper : ∀ k ∈ w, k.isUpper = true)
    (h : keyword? w t = some []) : t.map Char.toLower = w.map Char.toLower := by
  induction w generalizing t with
  | nil =>
    cases h
    rfl
  | cons k w ih =>
    obtain ⟨⟨hs, hkelvin⟩, hw⟩ := List.forall_mem_cons.1 hw
    obtain ⟨hk, hupper⟩ := List.forall_mem_cons.1 hupper
    cases t with
    | nil => cases h
    | cons c t =>
      rw [keyword?] at h
      split at h
      · rename_i hspells
        simp only [spells, hs, hkelvin, decide_false, Bool.false_and, Bool.or_false, Bool.or_eq_true,
          decide_eq_true_eq] at hspells
        rw [List.map_cons, List.map_cons, ih hw hupper h]
        rcases hspells with rfl | rfl
        · rfl
        · rw [Declaration.Casing.toLower_toLower hk]
      · cases h

theorem keyword?_of_map_toLower (hupper : ∀ k ∈ w, k.isUpper = true)
    (h : t.map Char.toLower = w.map Char.toLower) : keyword? w t = some [] := by
  induction w generalizing t with
  | nil =>
    rw [List.map_eq_nil_iff.1 h]
    rfl
  | cons k w ih =>
    obtain ⟨hk, hupper⟩ := List.forall_mem_cons.1 hupper
    obtain ⟨c, t, rfl⟩ := List.exists_cons_of_ne_nil (show t ≠ [] from fun ht => by simp [ht] at h)
    rw [List.map_cons, List.map_cons, List.cons.injEq] at h
    have hspells : spells k c = true := by
      have hback : ∀ {b : Char}, b.isUpper = true → b.toLower.toUpper = b := fun hb => by
        simpa using (Declaration.Casing.letter_classes (fun _ => true) hb).2
      by_cases hc : c.isUpper = true
      · have hsame : c = k := by rw [← hback hc, h.1, hback hk]
        simp [spells, hsame]
      · have hsmall : c.toLower = c := by
          unfold Char.toLower
          exact dif_neg (mt decide_eq_true hc)
        rw [hsmall] at h
        simp [spells, h.1]
    rw [keyword?, if_pos hspells]
    exact ih hupper h.2

/-- No clause is read where the text stands in front of a blank. -/
structure IsColumnName (t : Text) : Prop where
  notKeyword : ∀ w ∈ ([("CONSTRAINT" : Text), "PRIMARY", "FOREIGN"] : List Text), keyword? w t ≠ some []
  notLike : t.map Char.toLower ≠ ("LIKE" : Text).map Char.toLower
  opensNoClause : opensClause t = false

instance (t : Text) : Decidable (IsColumnName t) :=
  decidable_of_iff
    ((∀ w ∈ ([("CONSTRAINT" : Text), "PRIMARY", "FOREIGN"] : List Text), keyword? w t ≠ some []) ∧
      t.map Char.toLower ≠ ("LIKE" : Text).map Char.toLower ∧ opensClause t = false)
    ⟨fun h => ⟨h.1, h.2.1, h.2.2⟩, fun h => ⟨h.notKeyword, h.notLike, h.opensNoClause⟩⟩

end SchemaDiagram.Sql

namespace SchemaDiagram.Declaration.Part
open Sql Text Unicode

variable (p : Part) {w : Text}

theorem keyword?_quoted (hw : IsCapital w) (s : Text) : Sql.keyword? w ('"' :: s) = none :=
  keyword?_of_gap hw (by decide) s

theorem blanks?_of_ne (hw : IsCapital w) (hp : keyword? w p.text ≠ some []) (r : Text) :
    (keyword? w (p.text ++ ' ' :: r)).bind blanks? = none := by
  cases p with
  | quoted inside hne hquote =>
    rw [text, List.cons_append, keyword?_quoted hw]
    rfl
  | bare text h =>
    have hread := keyword?_append hw.2 (endsWord_space r) text
    rw [Part.text] at hp ⊢
    rw [hread]
    cases hu : keyword? w text with
    | none => rfl
    | some u =>
      cases u with
      | nil => exact absurd hu hp
      | cons c u =>
        have hc := (isBare h).solid c ((keyword?_suffix hu).1.mem List.mem_cons_self)
        simp [blanks?, hc]

theorem beginsWithWord (hw : IsCapital w) (hp : p.text.map Char.toLower ≠ w.map Char.toLower)
    (r : Text) : beginsWithWord (p.text ++ ' ' :: r) w = false := by
  cases p with
  | bare text h => exact beginsWithWord_bare hw (isBare h) hp r
  | quoted inside hne hquote =>
    obtain ⟨k, w, rfl⟩ := List.exists_cons_of_ne_nil hw.1
    have hk := beq_eq_false_iff_ne.2 (toLower_ne_capital (hw.2 k List.mem_cons_self)).2
    rw [Part.text, List.cons_append, Sql.beginsWithWord, Text.beginsWith, hk, Bool.false_and,
      Bool.false_and]

theorem columnHead? {s T tail : Text} (hT : dataType? s = some (T, tail))
    (hsolid : Sql.skipBlanks s = s) :
    columnHead? (p.text ++ ' ' :: s) = some (Sql.normalizeName p.text, T, tail) := by
  have hname := p.name? TableName.isNamePart_marks.2.2.2 s
  simp only [Sql.columnHead?, hname, blanks?_space hsolid, hT, Option.bind_eq_bind,
    Option.bind_some, Option.pure_def]

theorem columnHead?_typeWord {T : Text} (hT : typeWord? T = some []) :
    Sql.columnHead? (p.text ++ ' ' :: T) = some (Sql.normalizeName p.text, T, []) := by
  have hfollows : Follows (fun _ => false) [] := .inl rfl
  have htype : dataType? (T ++ []) = some (T, []) := by
    have htext := ColumnType.dataType?_text hfollows ⟨.word T hT, none, []⟩
    simpa [ColumnType.text, ColumnType.parameterText, ColumnType.arrayText, TypeWords.text] using htext
  have hsolid : Sql.skipBlanks (T ++ []) = T ++ [] := by
    obtain ⟨d, s, rfl, -, -⟩ := exists_of_typeWord? hT
    exact skipBlanks_solid (solid_of_typeWord? hT d List.mem_cons_self) (s ++ [])
  have hhead := p.columnHead? htype hsolid
  rwa [List.append_nil] at hhead

end SchemaDiagram.Declaration.Part

namespace SchemaDiagram.Sql
open Text Unicode Declaration

/-- Nothing that is looked for with what follows it is read at the beginning of the fragment; then one
of the opening words makes it a clause that is kept as text, and else it is a column. -/
structure BeginsAsColumn (f : Text) : Prop where
  trimmed : trim f = f
  unnamed : namedConstraint? f = none
  primary : phrase? ["PRIMARY", "KEY"] f = none
  foreign : phrase? ["FOREIGN", "KEY"] f = none
  constraint : beginsWithWord f "CONSTRAINT" = false
  like : beginsWithWord f "LIKE" = false

theorem BeginsAsColumn.ofFragment {f : Text} (h : BeginsAsColumn f) {d : ColumnDeclaration}
    (hd : ColumnDeclaration.ofFragment? f = some d) (table : Text) :
    Use.ofFragment table f =
      if opensClause f then .clause f [] else Use.ofDeclaration table (.ok d) := by
  have hwords : (constraintWords.any fun ws => (wholePhrase? ws f).isSome) = opensClause f := by
    simp only [constraintWords, List.any_cons, wholePhrase?, h.primary, h.foreign, opensClause,
      openingWords]
    rfl
  have hother : TableConstraint.ofDefinition table none f f = .other f := by
    simp only [TableConstraint.ofDefinition, foreignKeys?, foreignKeyClause?, primaryKey?, h.primary,
      h.foreign]
    rfl
  simp only [Use.ofFragment, TableConstraint.ofFragment?, h.trimmed, h.unnamed, hwords, hother]
  cases opensClause f with
  | true => rfl
  | false =>
    simp only [ColumnDeclaration.ofFragment, h.constraint, h.like, hd]
    rfl

theorem ofFragment?_head {f name dataType : Text} (htrim : trim f = f)
    (h : columnHead? f = some (name, dataType, [])) :
    ColumnDeclaration.ofFragment? f = some ⟨{ name, dataType }, none⟩ := by
  simp only [ColumnDeclaration.ofFragment?, htrim, h, Option.bind_eq_bind, Option.bind_some]
  rfl

/-- A name that is none of the words leaves the fragment to the columns. -/
theorem IsColumnName.beginsAsColumn {p : Part} (hp : IsColumnName p.text) {r : Text}
    (htrim : trim (p.text ++ ' ' :: r) = p.text ++ ' ' :: r) :
    BeginsAsColumn (p.text ++ ' ' :: r) := by
  have hread : ∀ w ∈ ([("CONSTRAINT" : Text), "PRIMARY", "FOREIGN"] : List Text), IsCapital w →
      (keyword? w (p.text ++ ' ' :: r)).bind blanks? = none :=
    fun w hw hcapital => p.blanks?_of_ne hcapital (hp.notKeyword w hw) r
  have hunnamed : namedConstraint? (p.text ++ ' ' :: r) = none := by
    rw [namedConstraint?, clause?_eq_none (hread "CONSTRAINT" (by decide) (by decide))]
    rfl
  have hconstraint : p.text.map Char.toLower ≠ ("CONSTRAINT" : Text).map Char.toLower :=
    fun h => hp.notKeyword "CONSTRAINT" (by decide) (keyword?_of_map_toLower (by decide) h)
  exact ⟨htrim, hunnamed, phrase?_eq_none (hread "PRIMARY" (by decide) (by decide)) "KEY" [],
    phrase?_eq_none (hread "FOREIGN" (by decide) (by decide)) "KEY" [],
    p.beginsWithWord (by decide) hconstraint r, p.beginsWithWord (by decide) hp.notLike r⟩

theorem IsColumnName.ofFragment {p : Part} (hp : IsColumnName p.text) {s T tail : Text}
    (htrim : trim (p.text ++ ' ' :: s) = p.text ++ ' ' :: s) (hT : dataType? s = some (T, tail))
    (hsolid : skipBlanks s = s) (table : Text) :
    ∃ c key?, Use.ofFragment table (p.text ++ ' ' :: s) = .column c key? ∧
      c.name = normalizeName p.text ∧ c.dataType = T ∧
      c.default? = defaultValue? tail (Quoting.mask tail) := by
  obtain ⟨d, hd, hcolumn⟩ : ∃ d, ColumnDeclaration.ofFragment? (p.text ++ ' ' :: s) = some d ∧
      d.column.name = normalizeName p.text ∧ d.column.dataType = T ∧
      d.column.default? = defaultValue? tail (Quoting.mask tail) := by
    simp only [ColumnDeclaration.ofFragment?, htrim, p.columnHead? hT hsolid, Option.bind_eq_bind,
      Option.bind_some]
    exact ⟨_, rfl, rfl, rfl, rfl⟩
  rw [(hp.beginsAsColumn htrim).ofFragment hd, opensClause_append, hp.opensNoClause]
  exact ⟨d.column, _, rfl, hcolumn⟩

theorem isColumnName_quoted (s : Text) : IsColumnName ('"' :: s) := by
  have hnone : ∀ w ∈ reservedWords, keyword? w ('"' :: s) = none := by
    have hcapital : ∀ w ∈ reservedWords, IsCapital w := by decide
    exact fun w hw => Part.keyword?_quoted (hcapital w hw) s
  refine ⟨?_, ?_, ?_⟩
  · intro w hw
    have hmem : ∀ w ∈ ([("CONSTRAINT" : Text), "PRIMARY", "FOREIGN"] : List Text),
        w ∈ reservedWords := by decide
    rw [hnone w (hmem w hw)]
    exact nofun
  · intro h
    exact absurd (List.cons.inj h).1 (by decide)
  · simp only [opensClause, openingWords, List.any_cons, List.any_nil, wholePhrase?, phrase?,
      hnone "UNIQUE" (by decide), hnone "CHECK" (by decide), hnone "EXCLUDE" (by decide)]
    rfl

theorem IsColumnName.collapse {p : Part} (hp : IsColumnName p.text) :
    IsColumnName (collapse p.text) := by
  cases p with
  | bare text h =>
    obtain ⟨c, r, hcons, -, hbare⟩ := isBare_of_bareName? h
    rwa [Part.text, collapse_of_tidy (tidy_of_solid (by simp [hcons]) hbare.solid).tidyFrom]
  | quoted inside hne hquote =>
    obtain ⟨u, hu⟩ := exists_collapse_solid (c := '"') (by decide) (inside ++ ['"'])
    rw [Part.text, hu]
    exact isColumnName_quoted u

section
variable {ident T : Text} (hident : bareName? ident = some (ident, [])) (hT : typeWord? T = some [])
include hident hT

theorem trim_name_type : trim (ident ++ ' ' :: T) = ident ++ ' ' :: T := by
  obtain ⟨c, r, rfl, -, hbare⟩ := isBare_of_bareName? hident
  obtain ⟨d, s, rfl, -, -⟩ := exists_of_typeWord? hT
  refine trim_of_ends ?_ ?_
  · intro e he
    cases he
    exact hbare.solid c List.mem_cons_self
  · have hend := (solidEnd_of_solid (solid_of_typeWord? hT)).after (List.cons_ne_nil d s)
      (c :: r ++ [' '])
    rwa [List.append_assoc] at hend

theorem namedConstraint?_name_type : namedConstraint? (ident ++ ' ' :: T) = none := by
  by_cases hread : keyword? "CONSTRAINT" ident = some []
  · obtain ⟨d, s, rfl, hd, hs⟩ := exists_of_typeWord? hT
    have hsolid := solid_of_typeWord? hT d List.mem_cons_self
    have hpart : ∀ c ∈ s, isNamePart c = true := by
      intro c hc
      have hc := hs c hc
      simp only [isTypePart, Bool.or_eq_true] at hc
      simp only [isNamePart, Bool.or_eq_true]
      exact .inl hc
    have hquote : d ≠ '"' := by
      rintro rfl
      exact absurd hd (by decide)
    have hclause : clause? ["CONSTRAINT"] (ident ++ ' ' :: d :: s) = some (d :: s) := by
      rw [clause?, keyword?_append (by decide) (endsWord_space _), hread]
      simp [clause?, blanks?, skipBlanks_solid hsolid, isBlank_space]
    have hname : name? (d :: s) = some (d :: s, []) := by
      rw [name?, quotedName?_eq_none hquote, bareName?, if_pos hd, List.takeWhile_eq_self_iff.2 hpart,
        List.dropWhile_eq_nil_iff.2 hpart]
      rfl
    rw [namedConstraint?, hclause]
    simp only [Option.bind_eq_bind, Option.bind_some, hname]
    rfl
  · have hnone := (Part.bare ident hident).blanks?_of_ne (w := "CONSTRAINT") (by decide) hread T
    rw [Part.text] at hnone
    rw [namedConstraint?, clause?_eq_none hnone]
    rfl

theorem beginsAsColumn_name_type
    (hreserved : ∀ w ∈ reservedWords, ident.map Char.toLower ≠ w.map Char.toLower) :
    BeginsAsColumn (ident ++ ' ' :: T) := by
  obtain ⟨c, r, hcons, -, hbare⟩ := isBare_of_bareName? hident
  have hunread : ∀ w ∈ reservedWords, IsCapital w → (∀ k ∈ w, k ≠ 'S' ∧ k ≠ 'K') → ∀ v ws,
      phrase? (w :: v :: ws) (ident ++ ' ' :: T) = none := by
    intro w hw hcapital hplain v ws
    have hne : keyword? w ident ≠ some [] :=
      fun h => hreserved w hw (map_toLower_of_keyword? hplain hcapital.2 h)
    exact phrase?_eq_none ((Part.bare ident hident).blanks?_of_ne hcapital hne T) v ws
  have hbegins : ∀ w ∈ reservedWords, IsCapital w → beginsWithWord (ident ++ ' ' :: T) w = false :=
    fun w hw hcapital => beginsWithWord_bare hcapital hbare (hreserved w hw) T
  exact ⟨trim_name_type hident hT, namedConstraint?_name_type hident hT,
    hunread "PRIMARY" (by decide) (by decide) (by decide) "KEY" [],
    hunread "FOREIGN" (by decide) (by decide) (by decide) "KEY" [],
    hbegins "CONSTRAINT" (by decide) (by decide), hbegins "LIKE" (by decide) (by decide)⟩

theorem columnHead?_name_type : columnHead? (ident ++ ' ' :: T) = some (ident, T, []) := by
  have hhead := (Part.bare ident hident).columnHead?_typeWord hT
  obtain ⟨c, r, hcons, -, hbare⟩ := isBare_of_bareName? hident
  rwa [Part.text, normalizeName_of_isBare hbare (by simp [hcons])] at hhead

theorem ofFragment_name_type
    (hreserved : ∀ w ∈ reservedWords, ident.map Char.toLower ≠ w.map Char.toLower) (table : Text) :
    Use.ofFragment table (ident ++ ' ' :: T) =
      if opensClause ident then .clause (ident ++ ' ' :: T) []
      else .column { name := ident, dataType := T } none := by
  have hdeclared := ofFragment?_head (trim_name_type hident hT) (columnHead?_name_type hident hT)
  rw [(beginsAsColumn_name_type hident hT hreserved).ofFragment hdeclared, opensClause_append]
  rfl

/-- A name and a type word in a body add one column to the table, at their place, and nothing to what
is left out. A name that begins with `UNIQUE`, `CHECK` or `EXCLUDE` up to a word boundary, such as
one with a dollar sign behind the word, adds a clause instead. -/
theorem readTable_name_type
    (hreserved : ∀ w ∈ reservedWords, ident.map Char.toLower ≠ w.map Char.toLower)
    {body rest : Text} {before after : List Text}
    (hbody : bodyFragments body = before ++ (ident ++ ' ' :: T) :: after)
    (hrest : bodyFragments rest = before ++ after) (mode : Mode) (name : Text)
    (record : List Skipped) :
    (Schema.readTable mode ⟨name, body⟩).run record =
      ((Schema.readTable mode ⟨name, rest⟩).run record).map (Prod.map (fun t =>
        if opensClause ident then
          t.insertConstraint (onePass name before).constraints.length (ident ++ ' ' :: T)
        else
          t.insertColumn (onePass name before).columns.length
            { name := ident, dataType := T }) id) := by
  have huse := ofFragment_name_type hident hT hreserved name
  rw [run_readTable, run_readTable, hbody, hrest, Mode.map_result]
  cases hopens : opensClause ident with
  | true =>
    rw [hopens] at huse
    obtain ⟨htable, hskipped⟩ := table_onePass_clause name before after huse
    rw [htable, hskipped]
    rfl
  | false =>
    rw [hopens] at huse
    obtain ⟨htable, hskipped⟩ := table_onePass_column name before after huse rfl
    rw [htable, hskipped]
    rfl

end

/-- A low line behind the word, between a key clause and another column. -/
theorem readTable_name_type_underscore :
    bodyFragments "PRIMARY KEY (id),\n  unique_id   uuid, id INT" =
        ["PRIMARY KEY (id)", "unique_id uuid", "id INT"] ∧
      (Schema.readTable .strict ⟨"t", "PRIMARY KEY (id),\n  unique_id   uuid, id INT"⟩).run [] =
        .ok ({
          name := "t"
          columns := [{ name := "unique_id", dataType := "uuid" }, { name := "id", dataType := "INT" }]
          primaryKeys := ["id"]
          constraints := ["PRIMARY KEY (id)"] }, []) := by
  have hident : bareName? "unique_id" = some (("unique_id" : Text), []) := by decide +kernel
  have hT : typeWord? "uuid" = some [] := by decide +kernel
  have hreserved : ∀ w ∈ reservedWords,
      ("unique_id" : Text).map Char.toLower ≠ w.map Char.toLower := by decide +kernel
  have hbody : bodyFragments "PRIMARY KEY (id),\n  unique_id   uuid, id INT" =
      [("PRIMARY KEY (id)" : Text)] ++ (("unique_id" : Text) ++ ' ' :: ("uuid" : Text)) ::
        [("id INT" : Text)] := by
    decide +kernel
  have hrest : bodyFragments "PRIMARY KEY (id), id INT" =
      [("PRIMARY KEY (id)" : Text)] ++ [("id INT" : Text)] := by
    decide +kernel
  refine ⟨hbody, (readTable_name_type hident hT hreserved hbody hrest .strict "t" []).trans ?_⟩
  decide +kernel

/-- A dollar sign behind the word ends it at a word boundary, though it belongs to the name. -/
theorem constraints_of_dollar_sign :
    bareName? "unique$x" = some (("unique$x" : Text), []) ∧ typeWord? "TEXT" = some [] ∧
      (∀ w ∈ reservedWords, ("unique$x" : Text).map Char.toLower ≠ w.map Char.toLower) ∧
      bodyFragments "unique$x TEXT" = ["unique$x TEXT"] ∧
      (Schema.readTable .lenient ⟨"t", "unique$x TEXT"⟩).run [] =
        .ok ({ name := "t", columns := [], constraints := ["unique$x TEXT"] }, []) := by
  decide +kernel

end SchemaDiagram.Sql
