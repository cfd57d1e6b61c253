import SchemaDiagram.Dbml.TypeName
import SchemaDiagram.Schema.Basic

/-!
The diagram document of a schema, line by line: the project, one block for each table, and the
relationships; then, in the full document, the groups of tables.
-/

set_option autoImplicit false

namespace SchemaDiagram.Dbml

structure TableNote where
  table : Text
  note : Text
  deriving DecidableEq, Repr

structure TableGroup where
  name : Text
  tables : List Text
  deriving DecidableEq, Repr

def defaultDatabaseType : Text := "PostgreSQL"

structure Settings where
  projectName : Text := "Database"
  databaseType : Text := defaultDatabaseType
  note : Option Text := none
  tableNotes : List TableNote := []
  tableGroups : List TableGroup := []
  deriving DecidableEq, Repr

/-- The first note on a table, unless it is empty. -/
def Settings.tableNote? (settings : Settings) (table : Text) : Option Text :=
  ((settings.tableNotes.find? (·.table = table)).map (·.note)).filter fun note => !note.isEmpty

def noteLine (note : Text) : Text := "  Note: ".toList ++ quoted note

def projectLines (settings : Settings) : List Text :=
  ["Project ".toList ++ quoted settings.projectName ++ " \x7b".toList,
   "  database_type: ".toList ++ quoted settings.databaseType] ++
  (settings.note.map noteLine).toList ++ ["\x7d".toList, []]

/-- What the language can express of a column, in brackets. -/
def columnSettings (c : Column) : List Text :=
  (if c.isPrimaryKey then ["pk".toList] else []) ++ (if c.isUnique then ["unique".toList] else [])

def columnNotes (c : Column) : List Text :=
  (c.reference?.map fun r => "FK -> ".toList ++ r.table ++ ['.'] ++ r.column).toList ++
  (if c.isNotNull && !c.isPrimaryKey then ["NOT NULL".toList] else []) ++
  (c.default?.map fun d => "default: ".toList ++ defaultValue d).toList ++
  (if c.hasCheck then ["has constraints".toList] else [])

def columnLine (c : Column) : Text :=
  let settings := columnSettings c
  let notes := columnNotes c
  name c.name ++ [' '] ++ dataType c.dataType ++
  (if settings.isEmpty then [] else " [".toList ++ Text.join ", ".toList settings ++ [']']) ++
  (if notes.isEmpty then [] else " // ".toList ++ Text.join ", ".toList notes)

/-- The column list of an index: an expression in backticks, several columns in parentheses. -/
def indexEntry (columns : Text) : Text :=
  if columns.contains '(' then "`".toList ++ columns ++ "`".toList
  else if columns.contains ',' then ['('] ++ columns ++ [')']
  else columns

def constraintLines (constraints : List Text) : List Text :=
  if constraints.isEmpty then []
  else [[], "  // Table constraints".toList] ++ constraints.map fun c => "  // ".toList ++ c

def indexLines (indexes : List Text) : List Text :=
  if indexes.isEmpty then []
  else [[], "  Indexes \x7b".toList] ++ (indexes.map fun i => "    ".toList ++ indexEntry i) ++
    ["  \x7d".toList]

def tableLines (settings : Settings) (t : Table) : List Text :=
  ["Table ".toList ++ name t.name ++ " \x7b".toList] ++
  ((settings.tableNote? t.name).map noteLine).toList ++
  (t.columns.map fun c => "  ".toList ++ columnLine c) ++ constraintLines t.constraints ++
  indexLines t.indexes ++ ["\x7d".toList]

def relationshipLine (r : Relationship) : Text :=
  "Ref: ".toList ++ name r.fromTable ++ ['.'] ++ name r.fromColumn ++ " > ".toList ++
    name r.target.table ++ ['.'] ++ name r.target.column

def documentLines (settings : Settings) (m : Schema) : List Text :=
  projectLines settings ++ (m.tables.flatMap fun t => tableLines settings t ++ [[]]) ++
  ["// Relationships".toList] ++ m.relationships.map relationshipLine

/-- The members of a group that the schema has; a group without any is not written. -/
def groupLines (m : Schema) (group : TableGroup) : List Text :=
  let members := group.tables.filter fun t => (m.table? t).isSome
  if members.isEmpty then []
  else ["TableGroup ".toList ++ quoted group.name ++ " \x7b".toList] ++
    (members.map fun t => "  ".toList ++ name t) ++ ["\x7d".toList, []]

def unlines (lines : List Text) : Text := Text.join ['\n'] lines

def document (settings : Settings) (m : Schema) : Text := unlines (documentLines settings m)

def groups (settings : Settings) (m : Schema) : Text :=
  unlines (settings.tableGroups.flatMap (groupLines m))

def fullDocument (settings : Settings) (m : Schema) : Text :=
  document settings m ++ "\n\n// Table Groups\n".toList ++ groups settings m

end SchemaDiagram.Dbml
