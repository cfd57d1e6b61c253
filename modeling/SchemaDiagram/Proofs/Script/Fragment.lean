import SchemaDiagram.Proofs.Script.Column

set_option autoImplicit false

namespace SchemaDiagram.Script
open Sql Unicode Text

theorem beginsWithWord_of_capitals {w : Text} (hw : ∀ k ∈ w, k.isUpper = true) {s : Text}
    (hs : ∀ c ∈ s, isAsciiPart c = true) (hne : capitals s ≠ w) (rest : Text) :
    beginsWithWord (s ++ ' ' :: rest) w = false := by
  induction w generalizing s with
  | nil =>
    cases s with
    | nil => exact absurd rfl hne
    | cons c s =>
      obtain ⟨-, hword, -⟩ := isAsciiPart_classes (hs c List.mem_cons_self)
      simp only [beginsWithWord, List.length_nil, List.drop_zero, List.cons_append, hword]
      simp
  | cons k w ih =>
    have hk := hw k List.mem_cons_self
    obtain ⟨-, hfold, hcapital, -⟩ := isAsciiPart_case (isAsciiPart_of_isUpper hk)
    obtain ⟨hupper, hblank⟩ := hcapital hk
    cases s with
    | nil =>
      simp [beginsWithWord, beginsWith, Ne.symm hblank]
    | cons c s =>
      by_cases hc : c.toLower = k.toLower
      · obtain ⟨-, hlower, -⟩ := isAsciiPart_case (hs c List.mem_cons_self)
        have hfirst : c.toUpper = k := by rw [← hlower, hc, hfold, hupper]
        have hrest : capitals s ≠ w := by
          intro h
          exact hne (by simp [capitals, hfirst, ← h])
        have hnext := ih (fun l hl => hw l (List.mem_cons_of_mem k hl))
          (fun d hd => hs d (List.mem_cons_of_mem c hd)) hrest
        simpa [beginsWithWord, beginsWith, hc] using hnext
      · simp [beginsWithWord, beginsWith, hc]

theorem Name.beginsWithWord (n : Name) {w : Text} (hw : w ∈ reserved) (hcapital : IsCapital w)
    (rest : Text) : beginsWithWord (n.text ++ ' ' :: rest) w = false :=
  beginsWithWord_of_capitals hcapital.2 n.plain.2 (fun h => n.isFree (h ▸ hw)) rest

namespace ColumnLine

theorem constraint?_text (table : Text) (c : ColumnLine) :
    TableConstraint.ofFragment? table c.text = none := by
  have htrim : Text.trim c.text = c.text := trim_of_tidy c.clean.tidy.tidyFrom
  have hends : endsWord (' ' :: (c.dataType.text ++ tail c.modifiers)) = true := by
    simp [endsWord]
  have hnamed : namedConstraint? c.text = none := by
    have hclause := c.name.clause? (w := "CONSTRAINT") (by decide) (by decide) [] hends
    rw [namedConstraint?, text, hclause]
    rfl
  have hwords : ∀ ws ∈ constraintWords, wholePhrase? ws c.text = none := by
    have hfree : ∀ w ws, w ∈ reserved → IsCapital w → wholePhrase? (w :: ws) c.text = none :=
      fun w ws hw hcapital => c.name.wholePhrase? hw hcapital ws hends
    intro ws hws
    simp only [constraintWords, List.mem_cons, List.not_mem_nil, or_false] at hws
    rcases hws with rfl | rfl | rfl | rfl | rfl <;> exact hfree _ _ (by decide) (by decide)
  have hany : (constraintWords.any fun ws => (wholePhrase? ws c.text).isSome) = false := by
    rw [List.any_eq_false]
    intro ws hws
    simp [hwords ws hws]
  rw [TableConstraint.ofFragment?, htrim, hnamed, hany]
  rfl

theorem declaration_text (c : ColumnLine) :
    ColumnDeclaration.ofFragment c.text = .ok ⟨c.ownColumn, c.reference?⟩ := by
  have hconstraint : beginsWithWord c.text "CONSTRAINT" = false :=
    c.name.beginsWithWord (by decide) (by decide) _
  have hlike : beginsWithWord c.text "LIKE" = false :=
    c.name.beginsWithWord (by decide) (by decide) _
  rw [ColumnDeclaration.ofFragment, hconstraint, hlike, c.ofFragment?_text]
  rfl

end ColumnLine

namespace Fragment

theorem keyName_eq (table : Name) (columns : List Text) :
    foreignKeyName table.text columns = keyName table.text columns := by
  have hlast : unqualified table.text = table.text := by
    have hpoint : ∀ c ∈ table.text, decide (c = '.') = false := by
      simpa using table.plain.ne_mark (m := '.') (by decide)
    rw [unqualified, splitAt_of_none hpoint]
    rfl
  simp only [foreignKeyName, keyName, hlast, List.append_assoc, List.cons_append, List.nil_append]

theorem foreignKeyClause?_text (target : Name) (pairs : List (Name × Name)) :
    foreignKeyClause? (referenceText target pairs) =
      some (listText (pairs.map (·.1)), target.text, listText (pairs.map (·.2))) := by
  have hwords : phrase? ["FOREIGN", "KEY"] (referenceText target pairs) =
      some (' ' :: (groupText (pairs.map (·.1)) ++ (" REFERENCES " ++
        (target.text ++ ' ' :: groupText (pairs.map (·.2)))))) := rfl
  have hspace : ∀ s, parenthesized? (' ' :: s) = parenthesized? s := fun _ => rfl
  have hskip : ∀ s : Text, skipBlanks (" REFERENCES " ++ s) = "REFERENCES" ++ ' ' :: s :=
    fun _ => rfl
  have hpoint : secondPart? (' ' :: groupText (pairs.map (·.2))) = none := rfl
  have htarget := target.qualifiedName? (c := ' ') (by decide) hpoint
  have htargets := parenthesized?_group (pairs.map (·.2)) []
  rw [List.append_nil] at htargets
  have hname : QualifiedName.text ⟨[], target.text⟩ = target.text := rfl
  unfold foreignKeyClause?
  rw [hwords]
  simp only [Option.bind_eq_bind, Option.bind_some]
  rw [hspace, parenthesized?_group]
  simp only [Option.bind_some]
  rw [hskip, target.plain.clause?]
  simp only [Option.bind_some]
  rw [htarget]
  simp only [Option.bind_some]
  rw [hspace, htargets, hname]
  rfl

theorem foreignKeys?_text (table : Name) (name? : Option Name) (target : Name)
    {pairs : List (Name × Name)} (h : pairs ≠ []) :
    foreignKeys? table.text (name?.map (·.text)) (referenceText target pairs) =
      some (clauseKeys table.text name? target pairs) := by
  have hcolumns : nameList (listText (pairs.map (·.1))) = nameTexts (pairs.map (·.1)) :=
    nameList_listText (by simpa using h)
  have htargets : nameList (listText (pairs.map (·.2))) = nameTexts (pairs.map (·.2)) :=
    nameList_listText (by simpa using h)
  have hempty : (nameTexts (pairs.map (·.1))).isEmpty = false := by
    simpa [nameTexts] using h
  have hlength : (nameTexts (pairs.map (·.1))).length = (nameTexts (pairs.map (·.2))).length := by
    simp [nameTexts]
  rw [foreignKeys?, foreignKeyClause?_text]
  simp only [Option.bind_eq_bind, Option.bind_some, hcolumns, htargets, hempty, hlength,
    keyName_eq, normalizeName_of_plain target.plain]
  simp [nameTexts, clauseKeys, List.zipWith_map]

theorem primaryKey?_text {columns : List Name} (h : columns ≠ []) :
    primaryKey? (keyText columns) = some (nameTexts columns) := by
  have hwords : phrase? ["PRIMARY", "KEY"] (keyText columns) = some (' ' :: groupText columns) :=
    rfl
  have hspace : parenthesized? (' ' :: groupText columns) = parenthesized? (groupText columns) :=
    rfl
  have hgroup := parenthesized?_group columns []
  rw [List.append_nil] at hgroup
  have hempty : (nameTexts columns).isEmpty = false := by simpa [nameTexts] using h
  unfold primaryKey?
  rw [hwords]
  simp only [Option.bind_eq_bind, Option.bind_some]
  rw [hspace, hgroup]
  simp only [Option.bind_some, nameList_listText h, hempty, Bool.false_eq_true, if_false]

def use (table : Text) : Fragment → Use
  | column c => .column c.ownColumn (c.reference?.map fun r =>
      ⟨c.name.text, r, keyName table [c.name.text]⟩)
  | primaryKey columns _ => .clause (keyText columns) (nameTexts columns)
  | foreignKey name? target pairs _ => .foreignKeys (clauseKeys table name? target pairs)

theorem constraint?_primaryKey (table : Text) {columns : List Name} (h : columns ≠ []) :
    TableConstraint.ofFragment? table (keyText columns) =
      some (.primaryKey (nameTexts columns) (keyText columns)) := by
  have hclean : Clean (keyText columns) := (primaryKey columns h).clean
  have htrim := trim_of_tidy hclean.tidy.tidyFrom
  have hnamed : namedConstraint? (keyText columns) = none := rfl
  have hwords : (wholePhrase? ["PRIMARY", "KEY"] (keyText columns)).isSome = true := rfl
  have hany : (constraintWords.any fun ws => (wholePhrase? ws (keyText columns)).isSome) = true :=
    List.any_eq_true.2 ⟨_, List.mem_cons_self, hwords⟩
  have hforeign : foreignKeys? table none (keyText columns) = none := rfl
  unfold TableConstraint.ofFragment?
  simp only [htrim, hnamed, hany, if_true, TableConstraint.ofDefinition, hforeign,
    primaryKey?_text h]

theorem constraint?_foreignKey (table : Name) (name? : Option Name) (target : Name)
    {pairs : List (Name × Name)} (h : pairs ≠ []) :
    TableConstraint.ofFragment? table.text (foreignKey name? target pairs h).text =
      some (.foreignKeys (clauseKeys table.text name? target pairs)) := by
  have hclean : Clean (referenceText target pairs) := clean_referenceText target h
  have htrim := trim_of_tidy hclean.tidy.tidyFrom
  have hkeys := foreignKeys?_text table name? target h
  cases name? with
  | none =>
    have hnamed : namedConstraint? (referenceText target pairs) = none := rfl
    have hwords : (wholePhrase? ["FOREIGN", "KEY"] (referenceText target pairs)).isSome = true :=
      rfl
    have hany : (constraintWords.any fun ws =>
        (wholePhrase? ws (referenceText target pairs)).isSome) = true :=
      List.any_eq_true.2 ⟨_, List.mem_cons_of_mem _ List.mem_cons_self, hwords⟩
    have htext : (foreignKey none target pairs h).text = referenceText target pairs := rfl
    rw [Option.map_none] at hkeys
    rw [htext]
    unfold TableConstraint.ofFragment?
    simp only [htrim, hnamed, hany, if_true, TableConstraint.ofDefinition, hkeys]
  | some name =>
    have hfragment := trim_of_tidy (foreignKey (some name) target pairs h).clean.tidy.tidyFrom
    have hnamed : namedConstraint? (foreignKey (some name) target pairs h).text =
        some (name.text, referenceText target pairs) := by
      have hclause := name.plain.clause? "CONSTRAINT" (' ' :: referenceText target pairs)
      have hname := name.name? (c := ' ') (by decide) (referenceText target pairs)
      have hblanks : blanks? (' ' :: referenceText target pairs) =
          some (referenceText target pairs) := rfl
      have htext : (foreignKey (some name) target pairs h).text =
          "CONSTRAINT" ++ ' ' :: (name.text ++ ' ' :: referenceText target pairs) := rfl
      rw [htext]
      unfold namedConstraint?
      rw [hclause]
      simp only [Option.bind_eq_bind, Option.bind_some, hname, hblanks, htrim,
        normalizeName_of_plain name.plain]
      rfl
    rw [Option.map_some] at hkeys
    unfold TableConstraint.ofFragment?
    simp only [hfragment, hnamed, TableConstraint.ofDefinition, hkeys]

theorem ofFragment_text (table : Name) (f : Fragment) :
    Use.ofFragment table.text f.text = f.use table.text := by
  cases f with
  | column c =>
    have hnone := c.constraint?_text table.text
    have hdeclared := c.declaration_text
    have htext : (column c).text = c.text := rfl
    rw [htext]
    unfold Use.ofFragment
    simp only [hnone, hdeclared, Use.ofDeclaration, keyName_eq]
    rfl
  | primaryKey columns h =>
    have hclause := constraint?_primaryKey table.text h
    have htext : (primaryKey columns h).text = keyText columns := rfl
    rw [htext]
    unfold Use.ofFragment
    simp only [hclause, Use.ofClause, use]
  | foreignKey name? target pairs h =>
    have hclause := constraint?_foreignKey table name? target h
    unfold Use.ofFragment
    simp only [hclause, Use.ofClause, use]

end Fragment

end SchemaDiagram.Script
