import SchemaDiagram.Sql.ColumnDeclaration
import SchemaDiagram.Sql.Placed
import SchemaDiagram.Sql.TableConstraint

/-!
The body of a table. Its fragments between commas are sorted into clauses and column declarations;
the two kinds are read one after the other, and their places bring the foreign keys of both back
into the order of the text.
-/

set_option autoImplicit false

namespace SchemaDiagram.Sql
open Unicode

def beginsWithWord (s word : Text) : Bool :=
  Text.beginsWith s word &&
    match s.drop word.length with
    | [] => true
    | c :: _ => !(isAlphanumeric c || c = '_' || c = '$')

def bodyFragments (body : Text) : List Text := topLevelParts (Text.collapse body)

/-- The clauses among the fragments. Clauses come first, since many of them read like a column. -/
def clausesOf (table : Text) (fragments : List Text) : List (Placed TableConstraint) :=
  (Placed.numberFrom 0 fragments).flatMap
    (Placed.spread fun f => (TableConstraint.ofFragment? table f).toList)

def otherFragments (table : Text) (fragments : List Text) : List (Placed Text) :=
  (Placed.numberFrom 0 fragments).filter
    fun f => (TableConstraint.ofFragment? table f.value).isNone

def ColumnDeclaration.ofFragment (fragment : Text) : Except SkipReason ColumnDeclaration :=
  if beginsWithWord fragment "CONSTRAINT" then .error .unrecognizedConstraint
  else if beginsWithWord fragment "LIKE" then .error .unsupportedClause
  else match ColumnDeclaration.ofFragment? fragment with
    | some d => .ok d
    | none => .error .unrecognizedColumn

namespace ColumnDeclaration

/-- The key of an own reference; it has the name of an undeclared constraint. -/
def foreignKeys (table : Text) (d : ColumnDeclaration) : List ForeignKey :=
  match d.reference? with
  | some target => [⟨d.column.name, target, foreignKeyName table [d.column.name]⟩]
  | none => []

def ownKey? (d : ColumnDeclaration) : Option Text :=
  if d.column.isPrimaryKey then some d.column.name else none

end ColumnDeclaration

namespace TableConstraint

def declaredKeys : TableConstraint → List ForeignKey
  | foreignKeys keys => keys
  | _ => []

def keyColumns : TableConstraint → List Text
  | primaryKey columns _ => columns
  | _ => []

/-- The text that is kept of a clause; a foreign key is kept as keys instead. -/
def raw? : TableConstraint → Option Text
  | foreignKeys _ => none
  | primaryKey _ raw => some raw
  | other raw => some raw

end TableConstraint

def addNew (names : List Text) (new : List Text) : List Text :=
  new.foldl (fun ns n => if ns.contains n then ns else ns ++ [n]) names

theorem addNew_cons (names : List Text) (n : Text) (new : List Text) :
    addNew names (n :: new) = addNew (if names.contains n then names else names ++ [n]) new := rfl

def tableOf (name : Text) (columns : List (Placed ColumnDeclaration))
    (clauses : List (Placed TableConstraint)) : Table where
  name := name
  columns := columns.map fun c => c.value.column
  primaryKeys :=
    addNew (columns.filterMap fun c => c.value.ownKey?) (clauses.flatMap fun c => c.value.keyColumns)
  foreignKeys :=
    (Placed.sort (columns.flatMap (Placed.spread (ColumnDeclaration.foreignKeys name)) ++
      clauses.flatMap (Placed.spread TableConstraint.declaredKeys))).map Placed.value
  constraints := clauses.filterMap fun c => c.value.raw?

end SchemaDiagram.Sql
