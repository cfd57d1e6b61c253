import SchemaDiagram.Proofs.Indexes
import SchemaDiagram.Proofs.Script.Statement

set_option autoImplicit false

namespace SchemaDiagram.Script
open Sql Unicode Text

theorem readTables_statements (ts : List TableLines) (tables : List Table) (record : List Skipped)
    (h : (tables.map (·.name) ++ ts.map fun t => t.name.text).Nodup) :
    (Schema.readTables .lenient (ts.map fun t => .complete t.statement) tables).run record =
      .ok (tables ++ ts.map TableLines.declared, record) := by
  induction ts generalizing tables with
  | nil =>
    rw [List.map_nil, List.map_nil, List.append_nil]
    rfl
  | cons t ts ih =>
    have hnew : t.declared.name ∉ tables.map (·.name) := by
      intro hmem
      exact (List.nodup_append.1 h).2.2 _ hmem _ List.mem_cons_self rfl
    have hput := Schema.put_of_new hnew
    have hrest : ((tables ++ [t.declared]).map (·.name) ++
        ts.map fun t => t.name.text).Nodup := by
      simpa [TableLines.declared] using h
    have hread := t.readTable_text record
    have hnext := ih (tables ++ [t.declared]) hrest
    rw [List.append_assoc] at hnext
    simp only [List.map_cons, Schema.readTables, TableLines.statement, StateT.run_bind, hread]
    simp only [bind, Except.bind, hput]
    exact hnext

theorem columnListsOn_statements (name : Text) (is : List IndexLine) :
    columnListsOn name (is.map fun i => .complete i.statement) =
      (is.filter fun i => i.table.text = name).map fun i => listText i.columns := by
  induction is with
  | nil => rfl
  | cons i is ih =>
    rw [List.map_cons, columnListsOn_cons, ih]
    by_cases hname : i.table.text = name <;>
      simp [Occurrence.columnsOn?, IndexLine.statement, hname]

theorem leftOutIndexes_statements {names : List Text} {is : List IndexLine}
    (hknown : ∀ i ∈ is, i.table.text ∈ names) :
    leftOutIndexes names (is.map fun i => .complete i.statement) = [] := by
  refine List.filterMap_eq_nil_iff.2 fun o ho => ?_
  obtain ⟨i, hi, rfl⟩ := List.mem_map.1 ho
  exact leftOut?_of_mem (s := i.statement) (hknown i hi)

theorem parse_lenient_text (s : Script) : Schema.parse .lenient s.text = .ok s.schema := by
  have hdistinct : (([] : List Table).map (·.name) ++ s.tables.map fun t => t.name.text).Nodup :=
    s.distinct
  have htables := readTables_statements s.tables [] [] hdistinct
  have hmarked : (s.tables.map TableLines.declared).map Table.markKeys =
      s.tables.map (TableLines.table []) := by
    rw [List.map_map]
    exact List.map_congr_left fun t _ => t.markKeys_declared
  have hnames : (s.tables.map (TableLines.table [])).map (·.name) =
      s.tables.map fun t => t.name.text := by
    rw [List.map_map]
    rfl
  have hknown : ∀ i ∈ s.indexes,
      i.table.text ∈ (s.tables.map (TableLines.table [])).map (·.name) := by
    intro i hi
    obtain ⟨t, ht, hname⟩ := s.known i hi
    rw [hnames]
    exact List.mem_map.2 ⟨t, ht, hname⟩
  have hnodup : ((s.tables.map (TableLines.table [])).map (·.name)).Nodup := by
    rw [hnames]
    exact s.distinct
  have hindexes := Schema.readIndexes_lenient (s.indexes.map fun i => .complete i.statement)
    hnodup []
  rw [leftOutIndexes_statements hknown] at hindexes
  have hschema : (s.tables.map (TableLines.table [])).map
      (Table.withIndexes (s.indexes.map fun i => .complete i.statement)) =
        s.tables.map (TableLines.table s.indexes) := by
    rw [List.map_map]
    refine List.map_congr_left fun t _ => ?_
    simp [Table.withIndexes, TableLines.table, columnListsOn_statements]
  have hread : (Schema.readStatements .lenient s.text).run [] =
      .ok (s.tables.map (TableLines.table s.indexes), []) := by
    unfold Schema.readStatements
    rw [tableOccurrences_text, indexOccurrences_text, StateT.run_bind, htables]
    simp only [bind, Except.bind, List.nil_append, hmarked, hindexes, hschema]
  rw [Schema.parse, stripComments_text, hread]
  rfl

/-- Reading takes back printing. -/
theorem parse_text (mode : Mode) (s : Script) : Schema.parse mode s.text = .ok s.schema := by
  have hlenient := parse_lenient_text s
  cases mode with
  | lenient => exact hlenient
  | strict =>
    -- Nothing is left out in lenient mode, so strict mode has nothing to refuse.
    obtain ⟨m, hm, hstrict⟩ := Schema.exists_parse_lenient s.text
    rw [hlenient] at hm
    cases hm
    exact hstrict

def Name.of (s : Text) (h : isAsciiWord s = true ∧ capitals s ∉ reserved := by decide) : Name :=
  ⟨s, h.1, h.2⟩

/-- A table whose literal holds whatever cuts or ends a piece of its text. -/
def shop : TableLines where
  name := .of "shop"
  fragments :=
    [.column ⟨.of "id", ⟨⟨"int", by decide, by decide⟩, []⟩,
      [.default (.digits ⟨"7", by decide, by decide⟩), .primaryKey]⟩,
     .foreignKey none (.of "shop") [(.of "id", .of "id"), (.of "note", .of "note")] (by decide),
     .column ⟨.of "note", ⟨⟨"varchar", by decide, by decide⟩, [⟨"20", by decide, by decide⟩]⟩,
      [.default (.literal ⟨"it's (a, b); NOT NULL", by decide, by decide, by decide, by decide,
        by decide, by decide⟩), .references (.of "time") (.of "id"), .unique]⟩,
     .primaryKey [.of "note", .of "id"] (by decide)]
  distinct := by decide

def shopScript : Script where
  tables := [shop]
  indexes := [⟨.of "first", .of "shop", [.of "note"]⟩]
  distinct := by decide
  known := by decide

theorem parse_text_shop :
    shopScript.text =
        "CREATE TABLE shop (id int DEFAULT 7 PRIMARY KEY, " ++
        "FOREIGN KEY (id, note) REFERENCES shop (id, note), " ++
        "note varchar(20) DEFAULT 'it''s (a, b); NOT NULL' REFERENCES time(id) UNIQUE, " ++
        "PRIMARY KEY (note, id));\nCREATE INDEX first ON shop (note);\n" ∧
      Schema.parse .strict shopScript.text = .ok shopScript.schema :=
  ⟨by decide +kernel, parse_text .strict shopScript⟩

end SchemaDiagram.Script
