import SchemaDiagram.Proofs.Body.Default
import SchemaDiagram.Proofs.Body.Statement
import SchemaDiagram.Proofs.Script.Literal

set_option autoImplicit false

namespace SchemaDiagram

namespace Declaration
open Sql Text Unicode

def literal (content : Text) : Text := '\'' :: (Script.doubled content ++ ['\''])

theorem isToken_literal (content : Text) : IsToken (literal content) := by
  have hcovered : ∀ n c, n.quoting.covers c = true → Nesting.stops n c = false := by
    intro n c hcovers
    simp [Nesting.stops, hcovers]
  have hopen : Nesting.step .start '\'' = ⟨.plain '\'', 0⟩ := rfl
  have hfoldl : (literal content).foldl Nesting.step .start = ⟨.outside .gap, 0⟩ := by
    rw [literal, List.foldl_cons, List.foldl_append, hopen, Script.foldl_doubled]
    rfl
  have hquoting := Nesting.quoting_foldl (literal content) .start
  rw [hfoldl] at hquoting
  refine ⟨List.cons_ne_nil _ _, ⟨rfl, ?_⟩, congrArg Quoting.isOpen hquoting.symm,
    congrArg Nesting.depth hfoldl⟩
  rw [hopen, quiet_append, Script.foldl_doubled]
  exact ⟨Script.quiet_doubled hcovered content, rfl, trivial⟩

theorem thinFrom_doubled (afterBlank : Bool) (s : Text) :
    thinFrom afterBlank (Script.doubled s ++ ['\'']) = thinFrom afterBlank s := by
  have hquote : isBlank '\'' = false := by decide
  induction s generalizing afterBlank with
  | nil => simp [Script.doubled, thinFrom, hquote]
  | cons c s ih =>
    by_cases hc : c = '\''
    · subst hc
      simp [Script.doubled, thinFrom, hquote, ih]
    · rw [Script.doubled, if_neg hc, List.cons_append, thinFrom, thinFrom, ih, ih]

/-- Collapsing leaves a literal as it is just where its blanks are single spaces. -/
theorem collapse_literal_iff (content : Text) :
    collapse (literal content) = literal content ↔ thinFrom false content = true := by
  have hquote : isBlank '\'' = false := by decide
  have hsame : thinFrom false (literal content) = thinFrom false content := by
    rw [literal, thinFrom, if_neg (by simp [hquote]), thinFrom_doubled]
  constructor
  · intro h
    rw [← hsame, ← h]
    exact thinFrom_collapse false _
  · intro h
    rw [← hsame] at h
    rw [← trim_of_thin h]
    refine trim_of_ends ?_ (fun c hc => (isToken_literal content).getLast? hc)
    intro c hc
    cases hc
    exact hquote

end Declaration

namespace WrittenTable
open Sql Text Unicode Declaration

variable {d : WrittenTable} {c : DefaultColumn} {lead trail : Text} {pre post : List Text}

/-- The column that one of the parts declares stands behind those of the parts in front of it. -/
theorem Counts.exists_column (hd : d.Counts) (hlead : ∀ b ∈ lead, isBlank b = true)
    (htrail : ∀ b ∈ trail, isBlank b = true)
    (hparts : d.parts = pre ++ (lead ++ (c.text ++ trail)) :: post) {sql : Text}
    (hsql : stripComments sql = d.text) {mode : Mode} {m : Schema} (h : Schema.parse mode sql = .ok m) :
    ∃ t column, m.table? d.name = some t ∧
      t.columns[(onePass d.name (collapsedParts pre)).columns.length]? = some column ∧
      c.Shown column := by
  obtain ⟨declared, key?, huse, hshown⟩ := c.ofFragment d.name
  have hpart : collapse (lead ++ (c.text ++ trail)) = collapse c.text :=
    collapse_padded hlead htrail c.text
  have hfragments := d.fragments_of_parts hparts (by rw [hpart]; exact c.collapse_text_ne_nil)
  rw [hpart] at hfragments
  have hdeclared : ((onePass d.name d.fragments).table d.name).columns =
      (onePass d.name (collapsedParts pre)).columns ++ declared ::
        (onePass d.name (collapsedParts post)).columns := by
    simp only [Draft.table, columns_onePass, hfragments, List.filterMap_append, List.filterMap_cons,
      huse, Use.column?]
  let shown : Column → Text × Text × Option Text := fun c => (c.name, c.dataType, c.default?)
  have hplace : (((onePass d.name d.fragments).table d.name).markKeys.columns.map shown)[
      (onePass d.name (collapsedParts pre)).columns.length]? = some (shown declared) := by
    rw [Table.map_markKeys (p := shown) fun _ => rfl, hdeclared, List.getElem?_map,
      List.getElem?_append_right (Nat.le_refl _), Nat.sub_self, List.getElem?_cons_zero,
      Option.map_some]
  rw [List.getElem?_map, Option.map_eq_some_iff] at hplace
  obtain ⟨column, hcolumn, hsame⟩ := hplace
  obtain ⟨hname, htypes⟩ := Prod.mk.inj hsame
  obtain ⟨htype, hdefault⟩ := Prod.mk.inj htypes
  exact ⟨_, column, hd.table?_of_parse hsql h, hcolumn, hname.trans hshown.name,
    htype.trans hshown.dataType, hdefault.trans hshown.default⟩

/-- Whatever a literal holds, it is the default of its column, with its blanks collapsed; it is kept
as it is just where its blanks are single spaces. -/
theorem default?_of_literal (hd : d.Counts) {content : Text}
    (hliteral : c.value.text = literal content) (hlead : ∀ b ∈ lead, isBlank b = true)
    (htrail : ∀ b ∈ trail, isBlank b = true)
    (hparts : d.parts = pre ++ (lead ++ (c.text ++ trail)) :: post) {sql : Text}
    (hsql : stripComments sql = d.text) :
    (∃ m, Schema.parse .lenient sql = .ok m) ∧
      ∀ mode m, Schema.parse mode sql = .ok m → ∃ t column,
        m.table? d.name = some t ∧
        t.columns[(onePass d.name (collapsedParts pre)).columns.length]? = some column ∧
        column.name = normalizeName (collapse c.name.text) ∧
        column.dataType = collapse c.dataType ∧
        column.default? = some (collapse (literal content)) ∧
        (column.default? = some (literal content) ↔ thinFrom false content = true) := by
  obtain ⟨m, hlenient, -⟩ := Schema.exists_parse_lenient sql
  refine ⟨⟨m, hlenient⟩, fun mode m h => ?_⟩
  obtain ⟨t, column, htable, hcolumn, hshown⟩ := hd.exists_column hlead htrail hparts hsql h
  have hdefault : column.default? = some (collapse (literal content)) := hliteral ▸ hshown.default
  refine ⟨t, column, htable, hcolumn, hshown.name, hshown.dataType, hdefault, ?_⟩
  rw [hdefault, Option.some.injEq]
  exact collapse_literal_iff content

def quotedDefault : DefaultColumn where
  name := .bare "note" (by decide +kernel)
  isColumnName := by decide +kernel
  dataType := "TEXT"
  isType := by decide +kernel
  whole := by decide +kernel
  casing := fun _ => true
  value := ⟨literal "it's, (\"x", isToken_literal _⟩
  afterName := .space
  afterType := ⟨"\n    ", by decide, by decide⟩
  afterWord := .space

def quotedTable : WrittenTable where
  before := "CREATE TABLE a (id INT);\n"
  header := "CREATE TABLE t ("
  written := "t"
  parts := ["\n  id INT", ("\n  " : Text) ++ (quotedDefault.text ++ "\n")]
  rest := ";"
  boundary := by decide +kernel
  isHeader := by decide +kernel
  whole := by decide +kernel
  ends := by decide +kernel

theorem default?_of_literal_quoted :
    quotedTable.text = ("CREATE TABLE a (id INT);\nCREATE TABLE t (\n  id INT," ++
        "\n  note TEXT\n    default 'it''s, (\"x'\n);" : String).toList ∧
      ∃ (m : Schema) (t : Table) (column : Column),
        Schema.parse .lenient quotedTable.text = .ok m ∧ m.table? "t" = some t ∧
        t.columns[1]? = some column ∧ column.name = ("note" : Text) ∧
        column.dataType = ("TEXT" : Text) ∧ column.default? = some ("'it''s, (\"x'" : Text) := by
  have hfindings : tableStatements.findings quotedTable.text =
      [⟨0, 23, .complete ⟨"a", "id INT"⟩⟩, ⟨25, 90, .complete quotedTable.statement⟩] := by
    decide +kernel
  have hcounts : quotedTable.Counts := by
    have hlength : quotedTable.before.length = 25 := by decide +kernel
    refine ⟨?_, ?_⟩
    · simp [hfindings, Finding.Hides, hlength]
    · simp [hfindings, hlength]
  have hsql : stripComments quotedTable.text = quotedTable.text := by decide +kernel
  have hparts : quotedTable.parts = [("\n  id INT" : Text)] ++
      (("\n  " : Text) ++ (quotedDefault.text ++ ("\n" : Text))) :: [] := rfl
  have hliteral : quotedDefault.value.text = literal "it's, (\"x" := rfl
  obtain ⟨⟨m, hm⟩, hparse⟩ :=
    default?_of_literal hcounts hliteral (by decide) (by decide) hparts hsql
  obtain ⟨t, column, htable, hcolumn, hname, htype, -, hdefault⟩ := hparse .lenient m hm
  have hplace :
      (onePass quotedTable.name (collapsedParts [("\n  id INT" : Text)])).columns.length = 1 := by
    decide +kernel
  have hthin : thinFrom false "it's, (\"x" = true := by decide +kernel
  refine ⟨?_, m, t, column, hm, htable, ?_, hname.trans ?_, htype.trans ?_, hdefault.2 hthin⟩
  · rw [String.toList_append, String.toList_ofList, String.toList_ofList]
    decide +kernel
  · rwa [hplace] at hcolumn
  · decide +kernel
  · decide +kernel

/-- Two spaces of a literal become one. -/
theorem default?_of_literal_spaces :
    literal "a  b" = ("'a  b'" : Text) ∧
      (Schema.parse .lenient "CREATE TABLE t (c TEXT DEFAULT 'a  b');").map (·.tables) =
        .ok [{ name := "t"
               columns := [{ name := "c", dataType := "TEXT", default? := some "'a b'" }] }] := by
  decide +kernel

end WrittenTable

end SchemaDiagram
