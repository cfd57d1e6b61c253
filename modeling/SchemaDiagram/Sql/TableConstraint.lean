import SchemaDiagram.Schema.Basic
import SchemaDiagram.Sql.Identifier

set_option autoImplicit false

namespace SchemaDiagram.Sql

inductive TableConstraint where
  | foreignKeys (keys : List ForeignKey)
  /-- The clause is kept as declared, besides its columns. -/
  | primaryKey (columns : List Text) (raw : Text)
  | other (raw : Text)
  deriving DecidableEq, Repr

def foreignKeyClause? (s : Text) : Option (Text × Text × Text) := do
  let s ← phrase? ["FOREIGN", "KEY"] s
  let (columns, s) ← parenthesized? s
  let s ← clause? ["REFERENCES"] (skipBlanks s)
  let (table, s) ← qualifiedName? s
  let (targets, _) ← parenthesized? s
  pure (columns, table.text, targets)

/-- One key for each pair of columns; lists of different lengths make no key. -/
def foreignKeys? (table : Text) (name : Option Text) (definition : Text) :
    Option (List ForeignKey) := do
  let (columns, target, targets) ← foreignKeyClause? definition
  let columns := nameList columns
  let targets := nameList targets
  if columns.isEmpty || columns.length ≠ targets.length then none
  else
    let constraintName := name.getD (foreignKeyName table columns)
    some (columns.zipWith
      (fun c t => ⟨c, ⟨normalizeName target, t⟩, constraintName⟩) targets)

def primaryKey? (definition : Text) : Option (List Text) := do
  let (columns, _) ← parenthesized? (← phrase? ["PRIMARY", "KEY"] definition)
  let columns := nameList columns
  if columns.isEmpty then none else some columns

/-- The constraint that a definition declares; `raw` is what is kept of it as text. -/
def TableConstraint.ofDefinition (table : Text) (name : Option Text) (definition raw : Text) :
    TableConstraint :=
  match foreignKeys? table name definition with
  | some keys => .foreignKeys keys
  | none =>
    match primaryKey? definition with
    | some columns => .primaryKey columns raw
    | none => .other raw

def constraintWords : List (List Text) :=
  [["PRIMARY", "KEY"], ["FOREIGN", "KEY"], ["UNIQUE"], ["CHECK"], ["EXCLUDE"]]

def namedConstraint? (s : Text) : Option (Text × Text) := do
  let s ← clause? ["CONSTRAINT"] s
  let (name, s) ← name? s
  let definition ← blanks? s
  pure (normalizeName name, Text.trim definition)

def TableConstraint.ofFragment? (table fragment : Text) : Option TableConstraint :=
  let fragment := Text.trim fragment
  match namedConstraint? fragment with
  | some (name, definition) =>
    let raw : Text := "CONSTRAINT " ++ name ++ [' '] ++ definition
    some (.ofDefinition table (some name) definition raw)
  | none =>
    if constraintWords.any fun ws => (wholePhrase? ws fragment).isSome then
      some (.ofDefinition table none fragment fragment)
    else none

end SchemaDiagram.Sql
