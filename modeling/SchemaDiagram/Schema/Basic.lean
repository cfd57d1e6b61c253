import SchemaDiagram.Text.Basic

/-!
A database schema as its tables in order of declaration, with a record of what was left out when
it was read.
-/

set_option autoImplicit false

namespace SchemaDiagram

structure Reference where
  table : Text
  column : Text
  deriving DecidableEq, Repr

structure Column where
  name : Text
  dataType : Text
  isPrimaryKey : Bool := false
  isNotNull : Bool := false
  default? : Option Text := none
  /-- The word `UNIQUE` and a `CHECK` clause, in this order, as far as present. -/
  constraints : List Text := []
  /-- Filled in from the keys of the table. -/
  reference? : Option Reference := none
  deriving DecidableEq, Repr

/-- One column of a foreign key; the columns of a composite key share its name. -/
structure ForeignKey where
  column : Text
  target : Reference
  constraintName : Text
  deriving DecidableEq, Repr

structure Table where
  name : Text
  columns : List Column := []
  /-- Columns declared as keys first, then those of key clauses. -/
  primaryKeys : List Text := []
  foreignKeys : List ForeignKey := []
  /-- The column lists of the indexes on the table. -/
  indexes : List Text := []
  /-- Clauses of the table that are not foreign keys, as declared. -/
  constraints : List Text := []
  deriving DecidableEq, Repr

/-- A foreign key seen from outside its table. -/
structure Relationship where
  fromTable : Text
  fromColumn : Text
  target : Reference
  constraintName : Text
  deriving DecidableEq, Repr

/-- Why a piece of text was left out. -/
inductive SkipReason where
  | unterminatedTable
  | unterminatedIndex
  | unrecognizedColumn
  | unrecognizedConstraint
  | unsupportedClause
  | unknownIndexTable
  deriving DecidableEq, Repr

/-- A piece of text that was left out, and where it stood. -/
structure Skipped where
  context : Text
  fragment : Text
  reason : SkipReason
  deriving DecidableEq, Repr

structure Schema where
  tables : List Table := []
  skipped : List Skipped := []
  deriving DecidableEq, Repr

namespace SkipReason

def text : SkipReason → Text
  | unterminatedTable => "CREATE TABLE body is not terminated by ');'"
  | unterminatedIndex => "CREATE INDEX column list is not closed"
  | unrecognizedColumn => "not a `name type` column declaration"
  | unrecognizedConstraint => "unrecognized CONSTRAINT clause"
  | unsupportedClause => "unsupported table clause"
  | unknownIndexTable => "index references an unknown table"

/-- Everything but an index on an unknown table is a fault of the text's own structure. -/
def isStructural : SkipReason → Bool
  | unknownIndexTable => false
  | _ => true

end SkipReason

namespace Column

def isForeignKey (c : Column) : Bool := c.reference?.isSome

def isUnique (c : Column) : Bool := c.constraints.contains "UNIQUE"

def hasCheck (c : Column) : Bool := c.constraints.any fun s => Text.beginsWith s "CHECK"

end Column

namespace Table

def column? (t : Table) (name : Text) : Option Column := t.columns.find? (·.name = name)

def relationships (t : Table) : List Relationship :=
  t.foreignKeys.map fun k => ⟨t.name, k.column, k.target, k.constraintName⟩

end Table

namespace Schema

def table? (m : Schema) (name : Text) : Option Table := m.tables.find? (·.name = name)

def names (m : Schema) : List Text := m.tables.map (·.name)

def foreignKeyCount (m : Schema) : Nat :=
  m.tables.foldl (fun n t => n + t.foreignKeys.length) 0

def relationships (m : Schema) : List Relationship := m.tables.flatMap Table.relationships

def modifyFirst {α : Type} (p : α → Bool) (f : α → α) : List α → List α
  | [] => []
  | a :: l => if p a then f a :: l else a :: modifyFirst p f l

/-- Puts a table at the end, or in the place of the table that has its name. -/
def put (t : Table) : List Table → List Table
  | [] => [t]
  | u :: l => if u.name = t.name then t :: l else u :: put t l

def insert (m : Schema) (t : Table) : Schema := { m with tables := put t m.tables }

end Schema

end SchemaDiagram
