import SchemaDiagram.Conversion.Failure
import SchemaDiagram.Dbml.Document
import SchemaDiagram.File.Path
import SchemaDiagram.Schema.Reading
import SchemaDiagram.Xml.Document

/-!
A project file: where a schema is, where its documents go, and what they say besides the schema.
Its properties are elements of property groups, and its notes and table groups are elements of
item groups.
-/

set_option autoImplicit false

namespace SchemaDiagram
open Xml

structure Project where
  name : Text
  databaseType : Text
  note : Option Text
  tableNotes : List Dbml.TableNote
  tableGroups : List Dbml.TableGroup
  schemaFile : Option Text
  outputDirectory : Option Text
  outputName : Option Text
  mode : Mode
  /-- The directory of the project file, from which its paths are seen. -/
  directory : Text
  deriving DecidableEq, Repr

namespace Project

def childrenNamed (name : Text) (c : Content) : List Content :=
  c.children.filter fun child => child.name? = some name

def nonBlank? (s : Text) : Option Text :=
  let s := Text.trim s
  if s.isEmpty then none else some s

/-- The text of the first element of a name in all property groups; a blank one is none. -/
def property? (root : Content) (name : Text) : Option Text := do
  let properties := (childrenNamed "PropertyGroup" root).flatMap Content.children
  let element ← properties.find? fun child => child.name? = some name
  nonBlank? (← element.text?)

def items (root : Content) (name : Text) : List Content :=
  (childrenNamed "ItemGroup" root).flatMap (childrenNamed name)

def includeOf (element : Text) (c : Content) : Except ProjectFault Text :=
  match (c.attribute? "Include").bind nonBlank? with
  | some value => .ok value
  | none => .error (.missingInclude element)

def tableNote (c : Content) : Except ProjectFault Dbml.TableNote := do
  let table ← includeOf "TableNote" c
  pure ⟨table, Text.trim (c.text?.getD [])⟩

def tableGroup (c : Content) : Except ProjectFault Dbml.TableGroup := do
  let name ← includeOf "TableGroup" c
  let tables ← (childrenNamed "Table" c).mapM (includeOf "Table")
  pure ⟨name, tables⟩

/-- A path of the project, in which backslashes count as slashes. -/
def resolve (directory value : Text) : Text :=
  Path.join directory (value.map fun c => if c = '\\' then '/' else c)

def modeOf (root : Content) : Except ProjectFault Mode :=
  match property? root "ParseMode" with
  | none => .ok .lenient
  | some word =>
    match Mode.ofText? word with
    | some mode => .ok mode
    | none => .error (.unknownMode word)

def ofContent (path : Text) (root : Content) : Except ProjectFault Project := do
  let name := root.name?.getD []
  if name ≠ "Project".toList then .error (.wrongRoot name)
  else
    let directory := (Path.parent? path).getD ['.']
    let mode ← modeOf root
    let tableNotes ← (items root "TableNote").mapM tableNote
    let tableGroups ← (items root "TableGroup").mapM tableGroup
    pure {
      name := (property? root "Name").getD ((Path.fileStem? path).getD "Database")
      databaseType := (property? root "DatabaseType").getD Dbml.defaultDatabaseType
      note := property? root "Note"
      tableNotes, tableGroups, mode, directory
      schemaFile := (property? root "Schema").map (resolve directory)
      outputDirectory := (property? root "OutputDir").map (resolve directory)
      outputName := property? root "OutputName" }

def settings (p : Project) : Dbml.Settings :=
  ⟨p.name, p.databaseType, p.note, p.tableNotes, p.tableGroups⟩

end Project

end SchemaDiagram
