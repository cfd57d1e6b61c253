import SchemaDiagram.Proofs.Cut.Unclosed
import SchemaDiagram.Schema.Basic

/-!
Column declarations as data: a name, a type and any modifiers. `Declaration.text` prints one, with
a space in front of everything behind the name, and `Declaration.column` says which column the text
is to be read as.
-/

set_option autoImplicit false

namespace SchemaDiagram.Declaration
open Sql Unicode Text

inductive Keyword where
  | primary | key | not | null | unique | default | check | references
  | on | delete | update | cascade | restrict | set | no | action
  | generated | always | byWord | as | identity
  deriving DecidableEq, Repr

def Keyword.text : Keyword → Text
  | primary => "PRIMARY"
  | key => "KEY"
  | not => "NOT"
  | null => "NULL"
  | unique => "UNIQUE"
  | default => "DEFAULT"
  | check => "CHECK"
  | references => "REFERENCES"
  | on => "ON"
  | delete => "DELETE"
  | update => "UPDATE"
  | cascade => "CASCADE"
  | restrict => "RESTRICT"
  | set => "SET"
  | no => "NO"
  | action => "ACTION"
  | generated => "GENERATED"
  | always => "ALWAYS"
  | byWord => "BY"
  | as => "AS"
  | identity => "IDENTITY"

/-- Which letters of the keywords are small. -/
abbrev Casing := Char → Bool

def Casing.spell (k : Casing) (w : Text) : Text := w.map fun c => if k c then c.toLower else c

/-- A part of a name: bare, or in double quotes. -/
inductive Part where
  | bare (text : Text) (isName : bareName? text = some (text, []))
  | quoted (inside : Text) (nonempty : inside ≠ []) (noQuote : '"' ∉ inside)

namespace Part

def text : Part → Text
  | bare text _ => text
  | quoted inside _ _ => '"' :: (inside ++ ['"'])

def content : Part → Text
  | bare text _ => text
  | quoted inside _ _ => inside

/-- A point in quotes would be taken for one between two parts. -/
def Plain (p : Part) : Prop := '.' ∉ p.text

instance (p : Part) : Decidable p.Plain := inferInstanceAs (Decidable (¬ _))

end Part

/-- The name of a table, with a second part in front of it or not. -/
structure TableName where
  schema? : Option Part
  name : Part

namespace TableName

def text (t : TableName) : Text :=
  match t.schema? with
  | some s => s.text ++ '.' :: t.name.text
  | none => t.name.text

def content (t : TableName) : Text :=
  match t.schema? with
  | some s => s.content ++ '.' :: t.name.content
  | none => t.name.content

def parts (t : TableName) : List Part := t.schema?.toList ++ [t.name]

end TableName

structure Digits where
  text : Text
  isNumber : ∀ c ∈ text, isNameDigit c = true

inductive TypeWords where
  | word (text : Text) (isWord : typeWord? text = some [])
  | double
  | characterVarying
  | bitVarying
  /-- `TIME` or `TIMESTAMP`, a precision or none, and `WITH` or `WITHOUT TIME ZONE`. -/
  | zoned (stamp : Bool) (precision? : Option {d : Digits // d.text ≠ []}) (without : Bool)

namespace TypeWords

def precisionText : Option {d : Digits // d.text ≠ []} → Text
  | some d => '(' :: (d.1.text ++ [')'])
  | none => []

def text (k : Casing) : TypeWords → Text
  | word text _ => text
  | double => k.spell "DOUBLE" ++ ' ' :: k.spell "PRECISION"
  | characterVarying => k.spell "CHARACTER" ++ ' ' :: k.spell "VARYING"
  | bitVarying => k.spell "BIT" ++ ' ' :: k.spell "VARYING"
  | zoned stamp precision? without =>
    k.spell (if stamp then "TIMESTAMP" else "TIME") ++ (precisionText precision? ++
      ' ' :: (k.spell (if without then "WITHOUT" else "WITH") ++
        ' ' :: (k.spell "TIME" ++ ' ' :: k.spell "ZONE")))

end TypeWords

/-- The words of a type, its parameters up to the first closing parenthesis, and array marks. -/
structure ColumnType where
  words : TypeWords
  parameters? : Option {s : Text // ')' ∉ s}
  arrays : List Digits

namespace ColumnType

def parameterText : Option {s : Text // ')' ∉ s} → Text
  | some s => '(' :: (s.1 ++ [')'])
  | none => []

def arrayText (arrays : List Digits) : Text := arrays.flatMap fun d => '[' :: (d.text ++ [']'])

def text (k : Casing) (t : ColumnType) : Text :=
  t.words.text k ++ (parameterText t.parameters? ++ arrayText t.arrays)

end ColumnType

/-- A text without blanks, commas and closing parentheses outside its own quotes and groups, in
which every quote and every group is closed. -/
structure IsToken (s : Text) : Prop where
  nonempty : s ≠ []
  quiet : Quiet Nesting.step Nesting.stops .start s
  closed : (Quoting.start.after s).isOpen = false
  level : (s.foldl Nesting.step .start).depth = 0

structure Value where
  text : Text
  isToken : IsToken text

structure Expression where
  text : Text
  balanced : Balanced text

inductive Effect where
  | cascade | restrict | setNull | setDefault | noAction
  deriving DecidableEq, Repr

def Effect.words : Effect → List Keyword
  | cascade => [.cascade]
  | restrict => [.restrict]
  | setNull => [.set, .null]
  | setDefault => [.set, .default]
  | noAction => [.no, .action]

structure Action where
  onDelete : Bool
  effect : Effect
  deriving DecidableEq, Repr

def Action.words (a : Action) : List Keyword :=
  .on :: (if a.onDelete then .delete else .update) :: a.effect.words

inductive Modifier where
  | primaryKey
  | notNull
  | unique
  | default (v : Value)
  | check (e : Expression)
  | references (table : TableName) (column : Part) (actions : List Action)
  | identity (always : Bool)

/-- What stands between two spaces outside quotes and groups. -/
inductive Piece where
  | word (w : Keyword)
  | value (v : Value)
  | group (e : Expression)
  | target (table : TableName) (column : Part)

def Piece.text (k : Casing) : Piece → Text
  | word w => k.spell w.text
  | value v => v.text
  | group e => '(' :: (e.text ++ [')'])
  | target table column => table.text ++ '(' :: (column.text ++ [')'])

def spaced (ts : List Text) : Text := ts.flatMap (' ' :: ·)

def spacedPieces (k : Casing) (ps : List Piece) : Text := spaced (ps.map (Piece.text k))

namespace Modifier

def pieces : Modifier → List Piece
  | primaryKey => [.word .primary, .word .key]
  | notNull => [.word .not, .word .null]
  | unique => [.word .unique]
  | default v => [.word .default, .value v]
  | check e => [.word .check, .group e]
  | references table column actions =>
    .word .references :: .target table column :: (actions.flatMap Action.words).map .word
  | identity always =>
    (.generated :: ((if always then [.always] else [.byWord, .default]) ++ [.as, .identity])).map .word

def isPrimaryKey : Modifier → Bool
  | primaryKey => true
  | _ => false

def isNotNull : Modifier → Bool
  | notNull => true
  | _ => false

def isUnique : Modifier → Bool
  | unique => true
  | _ => false

def default? : Modifier → Option Text
  | default v => some v.text
  | _ => none

def check? (k : Casing) : Modifier → Option Text
  | check e => some (k.spell Keyword.check.text ++ ' ' :: '(' :: (e.text ++ [')']))
  | _ => none

def reference? : Modifier → Option Reference
  | references table column _ => some ⟨table.content, column.content⟩
  | _ => none

end Modifier

end Declaration

/-- A column with modifiers in any order. Where one is repeated, the first default, the first check
and the first reference count. -/
structure Declaration where
  name : Declaration.Part
  plain : name.Plain
  dataType : Declaration.ColumnType
  modifiers : List Declaration.Modifier

namespace Declaration

def pieces (d : Declaration) : List Piece := d.modifiers.flatMap Modifier.pieces

def text (k : Casing) (d : Declaration) : Text :=
  d.name.text ++ ' ' :: (d.dataType.text k ++ spacedPieces k d.pieces)

def column (k : Casing) (d : Declaration) : Column where
  name := d.name.content
  dataType := d.dataType.text k
  isPrimaryKey := d.modifiers.any Modifier.isPrimaryKey
  isNotNull := d.modifiers.any Modifier.isNotNull
  default? := d.modifiers.findSome? Modifier.default?
  constraints :=
    let unique : List Text := if d.modifiers.any Modifier.isUnique then ["UNIQUE"] else []
    unique ++ (d.modifiers.findSome? (Modifier.check? k)).toList

def reference? (d : Declaration) : Option Reference := d.modifiers.findSome? Modifier.reference?

end Declaration

end SchemaDiagram
