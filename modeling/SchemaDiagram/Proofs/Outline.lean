import SchemaDiagram.Dbml.Document
import SchemaDiagram.Proofs.LetterCase
import SchemaDiagram.Proofs.OneLine

/-!
The diagram document as a list of lines, each with what it is for. Whatever a schema was read from,
splitting the document at line feeds gives these lines and no other (`splitAt_document`).
-/

set_option autoImplicit false

namespace SchemaDiagram

namespace Unicode
open Text

theorem oneLine_lower {s : Text} (h : OneLine s) : OneLine (lower s) :=
  mt (mem_lower_iff (by decide) s).1 h

end Unicode

namespace Dbml
open Text Unicode

inductive Line where
  | project (name : Text)
  | databaseType (type : Text)
  | note (text : Text)
  | table (name : Text)
  | column (column : Column)
  | constraintHeading
  | constraint (clause : Text)
  | indexHeading
  | index (columns : Text)
  | indexEnd
  | blockEnd
  | blank
  | relationshipHeading
  | relationship (relationship : Relationship)

namespace Line

def text : Line → Text
  | project name => "Project ".toList ++ quoted name ++ " \x7b".toList
  | databaseType type => "  database_type: ".toList ++ quoted type
  | note text => noteLine text
  | table name => "Table ".toList ++ Dbml.name name ++ " \x7b".toList
  | column c => "  ".toList ++ columnLine c
  | constraintHeading => "  // Table constraints".toList
  | constraint clause => "  // ".toList ++ clause
  | indexHeading => "  Indexes \x7b".toList
  | index columns => "    ".toList ++ indexEntry columns
  | indexEnd => "  \x7d".toList
  | blockEnd => "\x7d".toList
  | blank => []
  | relationshipHeading => "// Relationships".toList
  | relationship r => relationshipLine r

def contents : Line → List Text
  | project name => [name]
  | databaseType type => [type]
  | note text => [text]
  | table name => [name]
  | column c => c.contents
  | constraint clause => [clause]
  | index columns => [columns]
  | relationship r => [r.fromTable, r.fromColumn, r.target.table, r.target.column]
  | _ => []

end Line

/-- The lines of a table: its columns, then its clauses and its indexes, each kind under a heading
if there are any. -/
def tableOutline (settings : Settings) (t : Table) : List Line :=
  [.table t.name] ++ ((settings.tableNote? t.name).map Line.note).toList ++
  t.columns.map Line.column ++
  (if t.constraints.isEmpty then []
    else [.blank, .constraintHeading] ++ t.constraints.map Line.constraint) ++
  (if t.indexes.isEmpty then []
    else [.blank, .indexHeading] ++ t.indexes.map Line.index ++ [.indexEnd]) ++
  [.blockEnd]

/-- The lines of the document of a schema. -/
def outline (settings : Settings) (m : Schema) : List Line :=
  [.project settings.projectName, .databaseType settings.databaseType] ++
  (settings.note.map Line.note).toList ++ [.blockEnd, .blank] ++
  (m.tables.flatMap fun t => tableOutline settings t ++ [.blank]) ++
  [.relationshipHeading] ++ m.tables.flatMap fun t => t.foreignKeys.map fun k =>
    .relationship
      { fromTable := t.name
        fromColumn := k.column
        target := k.target
        constraintName := k.constraintName }

def Settings.contents (settings : Settings) : List Text :=
  [settings.projectName, settings.databaseType] ++ settings.note.toList ++
    settings.tableNotes.map (·.note)

theorem oneLine_quoted {s : Text} (h : OneLine s) : OneLine (quoted s) := by
  have hescaped : s.flatMap escapeChar ⊆ '\\' :: s := by
    intro c hc
    obtain ⟨d, hd, hc⟩ := List.mem_flatMap.1 hc
    unfold escapeChar at hc
    split at hc
    · rcases List.mem_cons.1 hc with rfl | hc
      · exact List.mem_cons_self
      · exact List.mem_cons_of_mem _ (List.mem_singleton.1 hc ▸ hd)
    · exact List.mem_cons_of_mem _ (List.mem_singleton.1 hc ▸ hd)
  have hinside := (h.cons (c := '\\') (by decide)).of_subset hescaped
  exact (OneLine.append (by decide) hinside).append (by decide)

theorem oneLine_join {separator : Text} (hseparator : OneLine separator) {parts : List Text}
    (h : OneLines parts) : OneLine (join separator parts) := by
  have hparts : ∀ p ∈ parts, p ⊆ separator ++ parts.flatten := by
    intro p hp c hc
    exact List.mem_append_right _ (List.mem_flatten.2 ⟨p, hp, hc⟩)
  refine OneLine.of_subset ?_ (join_subset (List.subset_append_left _ parts.flatten) hparts)
  refine hseparator.append ?_
  intro hbreak
  obtain ⟨p, hp, hbreak⟩ := List.mem_flatten.1 hbreak
  exact h p hp hbreak

theorem oneLine_name {s : Text} (h : OneLine s) : OneLine (name s) := by
  refine oneLine_join (by decide) ?_
  intro p hp
  obtain ⟨part, hpart, rfl⟩ := List.mem_map.1 hp
  have hpart := h.of_subset (subset_of_mem_splitAt hpart)
  unfold namePart
  split
  · exact hpart
  · exact oneLine_quoted hpart

theorem oneLine_baseType {base : Text} (h : OneLine base) : OneLine (baseType base) := by
  have hnames : ∀ written ∈ typeNames.map Prod.snd, OneLine written := by decide
  rcases baseType_cases base with hlower | hname
  · rw [hlower]
    exact oneLine_lower h
  · exact hnames _ hname

theorem oneLine_dataType {declared : Text} (h : OneLine declared) : OneLine (dataType declared) := by
  have htrim := h.of_subset (trim_subset declared)
  have hbase : OneLine (baseType (trimEnd ((trim declared).takeWhile fun c => !isParameterMark c))) := by
    refine oneLine_baseType (htrim.of_subset ?_)
    intro c hc
    exact List.takeWhile_subset _
      (List.mem_reverse.1 ((List.dropWhile_sublist _).mem (List.mem_reverse.1 hc)))
  have hparameters : OneLine (lower ((trim declared).dropWhile fun c => !isParameterMark c)) :=
    oneLine_lower (htrim.of_subset (List.dropWhile_subset _))
  have hwritten := hbase.append hparameters
  simp only [dataType]
  split
  · exact (OneLine.append (by decide) hwritten).append (by decide)
  · exact hwritten

theorem oneLine_defaultValue {declared : Text} (h : OneLine declared) :
    OneLine (defaultValue declared) := by
  have htrim := h.of_subset (trim_subset declared)
  simp only [defaultValue]
  split
  · decide
  · split
    · exact oneLine_lower htrim
    · split
      · exact htrim
      · exact oneLine_quoted htrim

theorem oneLine_columnLine {c : Column} (h : OneLines c.contents) : OneLine (columnLine c) := by
  simp only [Column.contents, OneLines.append, OneLines.cons, OneLines.toList,
    OneLines.flatMap, Option.mem_toList] at h
  obtain ⟨⟨⟨⟨hname, htype, -⟩, hdefault⟩, -⟩, hreference⟩ := h
  have hsettings : OneLines (columnSettings c) :=
    OneLines.append.2 ⟨OneLines.ite (by decide), OneLines.ite (by decide)⟩
  have htarget : OneLines (c.reference?.map fun r =>
      "FK -> ".toList ++ r.table ++ ['.'] ++ r.column).toList := by
    refine OneLines.toList.2 fun s hs => ?_
    obtain ⟨r, hr, rfl⟩ := Option.map_eq_some_iff.1 hs
    obtain ⟨htable, hcolumn⟩ := OneLines.cons.1 (hreference r hr)
    exact ((OneLine.append (by decide) htable).append (by decide)).append
      (OneLines.cons.1 hcolumn).1
  have hvalue : OneLines (c.default?.map fun d => "default: ".toList ++ defaultValue d).toList := by
    refine OneLines.toList.2 fun s hs => ?_
    obtain ⟨d, hd, rfl⟩ := Option.map_eq_some_iff.1 hs
    exact OneLine.append (by decide) (oneLine_defaultValue (hdefault d hd))
  have hnotes : OneLines (columnNotes c) := by
    simp only [columnNotes, OneLines.append]
    exact ⟨⟨⟨htarget, OneLines.ite (by decide)⟩, hvalue⟩, OneLines.ite (by decide)⟩
  have hcomma : OneLine ", ".toList := by decide
  have hstart := ((oneLine_name hname).append (t := [' ']) (by decide)).append (oneLine_dataType htype)
  simp only [columnLine]
  refine (hstart.append ?_).append ?_
  · split
    · exact List.not_mem_nil
    · exact (OneLine.append (by decide) (oneLine_join hcomma hsettings)).append (by decide)
  · split
    · exact List.not_mem_nil
    · exact OneLine.append (by decide) (oneLine_join hcomma hnotes)

theorem oneLine_indexEntry {columns : Text} (h : OneLine columns) : OneLine (indexEntry columns) := by
  unfold indexEntry
  split
  · exact (OneLine.append (by decide) h).append (by decide)
  · split
    · exact (OneLine.append (by decide) h).append (by decide)
    · exact h

theorem Line.oneLine_text {l : Line} (h : OneLines l.contents) : OneLine l.text := by
  cases l with
  | project name =>
    exact (OneLine.append (by decide) (oneLine_quoted (OneLines.cons.1 h).1)).append (by decide)
  | databaseType type => exact OneLine.append (by decide) (oneLine_quoted (OneLines.cons.1 h).1)
  | note text => exact OneLine.append (by decide) (oneLine_quoted (OneLines.cons.1 h).1)
  | table name =>
    exact (OneLine.append (by decide) (oneLine_name (OneLines.cons.1 h).1)).append (by decide)
  | column c => exact OneLine.append (by decide) (oneLine_columnLine h)
  | constraint clause => exact OneLine.append (by decide) (OneLines.cons.1 h).1
  | index columns => exact OneLine.append (by decide) (oneLine_indexEntry (OneLines.cons.1 h).1)
  | relationship r =>
    simp only [contents, OneLines.cons] at h
    obtain ⟨hfromTable, hfromColumn, htable, hcolumn, -⟩ := h
    have hfrom := ((OneLine.append (s := "Ref: ".toList) (by decide) (oneLine_name hfromTable)).append
      (t := ['.']) (by decide)).append (oneLine_name hfromColumn)
    have hto := ((hfrom.append (t := " > ".toList) (by decide)).append (oneLine_name htable)).append
      (t := ['.']) (by decide)
    exact hto.append (oneLine_name hcolumn)
  | constraintHeading => decide
  | indexHeading => decide
  | indexEnd => decide
  | blockEnd => decide
  | blank => exact List.not_mem_nil
  | relationshipHeading => decide

theorem constraintLines_eq (constraints : List Text) :
    constraintLines constraints = (if constraints.isEmpty then [] else
      [.blank, .constraintHeading] ++ constraints.map Line.constraint).map Line.text := by
  cases constraints with
  | nil => rfl
  | cons c cs =>
    simp only [constraintLines, List.isEmpty_cons, Bool.false_eq_true, if_false]
    rw [List.map_append, List.map_map]
    rfl

theorem indexLines_eq (indexes : List Text) :
    indexLines indexes = (if indexes.isEmpty then [] else
      [.blank, .indexHeading] ++ indexes.map Line.index ++ [.indexEnd]).map Line.text := by
  cases indexes with
  | nil => rfl
  | cons i is =>
    simp only [indexLines, List.isEmpty_cons, Bool.false_eq_true, if_false]
    rw [List.map_append, List.map_append, List.map_map]
    rfl

theorem noteLines_eq (note? : Option Text) :
    (note?.map noteLine).toList = (note?.map Line.note).toList.map Line.text := by
  cases note? <;> rfl

theorem tableLines_eq (settings : Settings) (t : Table) :
    tableLines settings t = (tableOutline settings t).map Line.text := by
  simp only [tableLines, tableOutline, List.map_append, constraintLines_eq, indexLines_eq,
    noteLines_eq, List.map_map, Function.comp_def]
  rfl

theorem documentLines_eq (settings : Settings) (m : Schema) :
    documentLines settings m = (outline settings m).map Line.text := by
  simp only [documentLines, projectLines, outline, Schema.relationships, Table.relationships,
    List.map_append, List.map_flatMap, tableLines_eq, noteLines_eq, List.map_map, Function.comp_def]
  rfl

theorem splitAt_unlines {lines : List Text} (hne : lines ≠ []) (h : OneLines lines) :
    splitAt (· = '\n') (unlines lines) = lines := by
  refine splitAt_join_mark (by decide) hne ?_
  exact fun l hl c hc => decide_eq_false (ne_of_mem_of_not_mem hc (h l hl))

section
variable {settings : Settings} {m : Schema} (hsettings : OneLines settings.contents)
include hsettings

theorem oneLine_tableNote? {table note : Text} (h : settings.tableNote? table = some note) :
    OneLine note := by
  simp only [Settings.tableNote?, Option.filter_eq_some_iff, Option.map_eq_some_iff] at h
  obtain ⟨⟨n, hn, rfl⟩, -⟩ := h
  exact hsettings _ (List.mem_append_right _
    (List.mem_map.2 ⟨n, List.mem_of_find?_eq_some hn, rfl⟩))

theorem oneLines_tableOutline {t : Table} (hname : OneLine t.name) (h : OneLines t.contents) :
    ∀ l ∈ tableOutline settings t, OneLines l.contents := by
  simp only [Table.contents, OneLines.append, OneLines.flatMap] at h
  obtain ⟨⟨⟨⟨hcolumns, -⟩, -⟩, hindexes⟩, hconstraints⟩ := h
  intro l hl
  simp only [tableOutline, List.mem_append, List.mem_singleton, Option.mem_toList,
    Option.map_eq_some_iff, List.mem_map] at hl
  rcases hl with ((((rfl | ⟨note, hnote, rfl⟩) | ⟨c, hc, rfl⟩) | hl) | hl) | rfl
  · exact OneLines.singleton hname
  · exact OneLines.singleton (oneLine_tableNote? hsettings hnote)
  · exact hcolumns c hc
  · split at hl
    · cases hl
    · rcases List.mem_append.1 hl with hl | hl
      · simp only [List.mem_cons, List.not_mem_nil, or_false] at hl
        rcases hl with rfl | rfl <;> exact OneLines.nil
      · obtain ⟨clause, hclause, rfl⟩ := List.mem_map.1 hl
        exact OneLines.singleton (hconstraints clause hclause)
  · split at hl
    · cases hl
    · simp only [List.mem_append, List.mem_cons, List.not_mem_nil, or_false, List.mem_map] at hl
      rcases hl with ((rfl | rfl) | ⟨columns, hmem, rfl⟩) | rfl
      · exact OneLines.nil
      · exact OneLines.nil
      · exact OneLines.singleton (hindexes columns hmem)
      · exact OneLines.nil
  · exact OneLines.nil

theorem oneLines_outline (hnames : ∀ t ∈ m.tables, OneLine t.name)
    (h : ∀ t ∈ m.tables, OneLines t.contents) :
    ∀ l ∈ outline settings m, OneLines l.contents := by
  intro l hl
  simp only [outline, List.mem_append, List.mem_cons, List.not_mem_nil, or_false,
    Option.mem_toList, Option.map_eq_some_iff, List.mem_flatMap, List.mem_map] at hl
  rcases hl with (((((rfl | rfl) | ⟨note, hnote, rfl⟩) | rfl | rfl) | ⟨t, ht, hl | rfl⟩) | rfl) |
    ⟨t, ht, k, hk, rfl⟩
  · exact OneLines.singleton (hsettings _ (by simp [Settings.contents]))
  · exact OneLines.singleton (hsettings _ (by simp [Settings.contents]))
  · exact OneLines.singleton (hsettings _ (by simp [Settings.contents, hnote]))
  · exact OneLines.nil
  · exact OneLines.nil
  · exact oneLines_tableOutline hsettings (hnames t ht) (h t ht) l hl
  · exact OneLines.nil
  · exact OneLines.nil
  · have htable := h t ht
    simp only [Table.contents, OneLines.append, OneLines.flatMap] at htable
    exact OneLines.cons.2 ⟨hnames t ht, htable.1.1.2 k hk⟩

end

/-- Of a schema that was read, the document has the lines of its outline and no others. -/
theorem splitAt_document {mode : Mode} {sql : Text} {m : Schema}
    (h : Schema.parse mode sql = .ok m) (hnames : ∀ t ∈ m.tables, OneLine t.name)
    {settings : Settings} (hsettings : OneLines settings.contents) :
    Text.splitAt (· = '\n') (document settings m) = (outline settings m).map Line.text := by
  have hlines : OneLines ((outline settings m).map Line.text) := by
    intro s hs
    obtain ⟨l, hl, rfl⟩ := List.mem_map.1 hs
    exact Line.oneLine_text
      (oneLines_outline hsettings hnames (Schema.oneLines_of_parse h) l hl)
  rw [document, documentLines_eq]
  exact splitAt_unlines (by simp [outline]) hlines

/-- Line feeds inside a type, a check, a literal, a quoted name, a key and an index. -/
theorem splitAt_document_broken_lines :
    ∃ m : Schema,
      Schema.parse .lenient "CREATE TABLE a (id NUMERIC(8,\n2) CHECK (id\n> 1),
        b TEXT DEFAULT 'x\n' REFERENCES\n\"c\nd\"(id), PRIMARY KEY (id,\nb));
        CREATE INDEX i ON a (lower(b\n));" = .ok m ∧
      Text.splitAt (· = '\n') (document { tableNotes := [⟨"a", "kept"⟩] } m) =
        ["Project \"Database\" \x7b", "  database_type: \"PostgreSQL\"", "\x7d", "",
          "Table a \x7b", "  Note: \"kept\"",
          "  id decimal(8, 2) [pk] // has constraints",
          "  b text [pk] // FK -> c d.id, default: \"'x '\"", "",
          "  // Table constraints", "  // PRIMARY KEY (id, b)", "",
          "  Indexes \x7b", "    `lower(b )`", "  \x7d", "\x7d", "",
          "// Relationships", "Ref: a.b > \"c d\".id"] := by
  have h : Schema.parse .lenient "CREATE TABLE a (id NUMERIC(8,\n2) CHECK (id\n> 1),
        b TEXT DEFAULT 'x\n' REFERENCES\n\"c\nd\"(id), PRIMARY KEY (id,\nb));
        CREATE INDEX i ON a (lower(b\n));" =
      .ok {
        tables := [{
          name := "a"
          columns := [
            { name := "id", dataType := "NUMERIC(8, 2)", isPrimaryKey := true,
              constraints := ["CHECK (id > 1)"] },
            { name := "b", dataType := "TEXT", isPrimaryKey := true, default? := some "'x '",
              reference? := some ⟨"c d", "id"⟩ }]
          primaryKeys := ["id", "b"]
          foreignKeys := [⟨"b", ⟨"c d", "id"⟩, "a_b_fkey"⟩]
          indexes := ["lower(b )"]
          constraints := ["PRIMARY KEY (id, b)"] }] } := by
    decide +kernel
  exact ⟨_, h, (splitAt_document h (by decide) (by decide)).trans (by decide +kernel)⟩

end Dbml

end SchemaDiagram
