import SchemaDiagram.Schema.Basic

/-!
Keys are declared on a table and shown on its columns. A key clause may stand before the column
it names, so the columns are marked once the table is complete.
-/

set_option autoImplicit false

namespace SchemaDiagram

namespace Table

def modifyColumn (name : Text) (f : Column → Column) (columns : List Column) : List Column :=
  Schema.modifyFirst (fun c => c.name = name) f columns

/-- Each foreign key marks its column, a later one over an earlier one. -/
def markReferences (keys : List ForeignKey) (columns : List Column) : List Column :=
  keys.foldl (fun cs k => modifyColumn k.column (fun c => { c with reference? := k.target }) cs)
    columns

def markPrimaryKeys (keys : List Text) (columns : List Column) : List Column :=
  keys.foldl (fun cs k => modifyColumn k (fun c => { c with isPrimaryKey := true }) cs) columns

/-- Shows the keys of the table on its columns; a key without a column marks nothing. -/
def markKeys (t : Table) : Table :=
  { t with columns := markPrimaryKeys t.primaryKeys (markReferences t.foreignKeys t.columns) }

end Table

def Schema.markKeys (m : Schema) : Schema := { m with tables := m.tables.map Table.markKeys }

end SchemaDiagram
