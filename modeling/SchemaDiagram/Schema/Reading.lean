import SchemaDiagram.Schema.Keys
import SchemaDiagram.Sql.Comment
import SchemaDiagram.Sql.Statement
import SchemaDiagram.Sql.TableBody
import SchemaDiagram.Unicode.Case

/-!
From the text of a schema to its tables. What cannot be read is left out and recorded; in strict
mode the first fault of the text's structure ends the reading instead.
-/

set_option autoImplicit false

namespace SchemaDiagram
open Sql

inductive Mode where
  | lenient
  | strict
  deriving DecidableEq, Repr

namespace Mode

def ofText? (s : Text) : Option Mode :=
  let word := Unicode.lower (Text.trim s)
  if word = "lenient" then some .lenient
  else if word = "strict" then some .strict
  else none

def name : Mode → Text
  | lenient => "Lenient"
  | strict => "Strict"

end Mode

/-- A reading keeps a record of what was left out, and fails at one such piece. -/
abbrev Reading (α : Type) := StateT (List Skipped) (Except Skipped) α

/-- Leaves a piece out. -/
def skip (mode : Mode) (piece : Skipped) : Reading Unit := fun record =>
  if mode = .strict ∧ piece.reason.isStructural then .error piece
  else .ok ((), record ++ [piece])

namespace Schema

def readColumns (mode : Mode) (table : Text) :
    List (Placed Text) → Reading (List (Placed ColumnDeclaration))
  | [] => pure []
  | fragment :: rest => do
    match ColumnDeclaration.ofFragment fragment.value with
    | .ok declaration =>
      let columns ← readColumns mode table rest
      pure (⟨fragment.place, declaration⟩ :: columns)
    | .error reason =>
      skip mode ⟨"table " ++ table, fragment.value, reason⟩
      readColumns mode table rest

def readTable (mode : Mode) (statement : TableStatement) : Reading Table := do
  let fragments := bodyFragments statement.body
  let clauses := clausesOf statement.name fragments
  let columns ← readColumns mode statement.name (otherFragments statement.name fragments)
  pure (tableOf statement.name columns clauses)

def readTables (mode : Mode) : List (Occurrence TableStatement) → List Table → Reading (List Table)
  | [], tables => pure tables
  | .complete s :: rest, tables => do
    let table ← readTable mode s
    readTables mode rest (put table tables)
  | .unterminated header :: rest, tables => do
    skip mode ⟨"CREATE TABLE", header, .unterminatedTable⟩
    readTables mode rest tables

def readIndexes (mode : Mode) : List (Occurrence IndexStatement) → List Table → Reading (List Table)
  | [], tables => pure tables
  | .complete s :: rest, tables =>
    if tables.any (·.name = s.table) then
      readIndexes mode rest
        (modifyFirst (·.name = s.table) (fun t => { t with indexes := t.indexes ++ [s.columns] })
          tables)
    else do
      skip mode ⟨"CREATE INDEX", s.table ++ " (" ++ s.columns ++ ")", .unknownIndexTable⟩
      readIndexes mode rest tables
  | .unterminated header :: rest, tables => do
    skip mode ⟨"CREATE INDEX", header, .unterminatedIndex⟩
    readIndexes mode rest tables

def readStatements (mode : Mode) (sql : Text) : Reading (List Table) := do
  let tables ← readTables mode (tableOccurrences sql) []
  readIndexes mode (indexOccurrences sql) (tables.map Table.markKeys)

/-- Reads a schema. An error is the piece of text that strict mode refuses. -/
def parse (mode : Mode) (sql : Text) : Except Skipped Schema := do
  let (tables, skipped) ← (readStatements mode (stripComments sql)).run []
  pure ⟨tables, skipped⟩

end Schema

end SchemaDiagram
