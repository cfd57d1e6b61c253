import SchemaDiagram.Proofs.Boundary
import SchemaDiagram.Proofs.KeyMarks

/-!
Scripts as data: tables of columns and key clauses, then indexes on them. `Script.text` prints a
script, and `Script.schema` says which schema the text is to be read as.
-/

set_option autoImplicit false

namespace SchemaDiagram.Script
open Sql Unicode

/-- The words that are taken for something else where a name may stand. The other words of the
language are no obstacle there. -/
def reserved : List Text :=
  ["CREATE", "IF", "CONCURRENTLY", "ONLY", "CONSTRAINT", "FOREIGN", "REFERENCES", "PRIMARY",
   "UNIQUE", "CHECK", "EXCLUDE", "LIKE", "NOT", "DEFAULT"]

def isAsciiStart (c : Char) : Bool := c.isAlpha || c = '_'

def isAsciiPart (c : Char) : Bool := c.isAlphanum || c = '_'

def isAsciiWord : Text → Bool
  | [] => false
  | c :: s => isAsciiStart c && s.all isAsciiPart

def capitals (s : Text) : Text := s.map Char.toUpper

structure Word (others : List Text) where
  text : Text
  isWord : isAsciiWord text = true
  isFree : capitals text ∉ others

abbrev Name := Word reserved

/-- Types may share words with the rest of the language; only a statement may not begin there. -/
abbrev TypeWord := Word ["CREATE"]

structure Digits where
  text : Text
  nonempty : text ≠ []
  isNumber : ∀ c ∈ text, c.isDigit = true

def doubled : Text → Text
  | [] => []
  | c :: s => if c = '\'' then c :: c :: doubled s else c :: doubled s

/-- The content of a literal: any text without comment marks, without the two words, and with no
blanks but single spaces. -/
structure Literal where
  content : Text
  isSpace : ∀ c ∈ content, isBlank c = true → c = ' '
  isSingle : hasPair ' ' ' ' content = false
  noLineMark : hasPair '-' '-' content = false
  noBlockMark : hasPair '/' '*' content = false
  noCreate : Lacks "CREATE" content
  noReferences : Lacks "REFERENCES" content

def Literal.text (l : Literal) : Text := '\'' :: (doubled l.content ++ ['\''])

inductive Value where
  | digits (d : Digits)
  | literal (l : Literal)

def Value.text : Value → Text
  | digits d => d.text
  | literal l => l.text

inductive Modifier where
  | primaryKey
  | notNull
  | unique
  | default (v : Value)
  | references (table column : Name)

namespace Modifier

def text : Modifier → Text
  | primaryKey => "PRIMARY KEY"
  | notNull => "NOT NULL"
  | unique => "UNIQUE"
  | default v => "DEFAULT " ++ v.text
  | references table column => "REFERENCES " ++ (table.text ++ '(' :: (column.text ++ [')']))

def isPrimaryKey : Modifier → Bool
  | primaryKey => true
  | _ => false

def isNotNull : Modifier → Bool
  | notNull => true
  | _ => false

def isUnique : Modifier → Bool
  | unique => true
  | _ => false

def default? : Modifier → Option Text
  | default v => some v.text
  | _ => none

def reference? : Modifier → Option Reference
  | references table column => some ⟨table.text, column.text⟩
  | _ => none

end Modifier

structure TypeName where
  word : TypeWord
  parameters : List Digits

namespace TypeName

def parameterText : List Digits → Text
  | [] => []
  | ds => '(' :: (Text.join [','] (ds.map Digits.text) ++ [')'])

def text (t : TypeName) : Text := t.word.text ++ parameterText t.parameters

end TypeName

/-- A column with modifiers in any order. Where one is repeated, the first default and the first
reference count. -/
structure ColumnLine where
  name : Name
  dataType : TypeName
  modifiers : List Modifier

namespace ColumnLine

def tail (modifiers : List Modifier) : Text := modifiers.flatMap fun m => ' ' :: m.text

def text (c : ColumnLine) : Text :=
  c.name.text ++ ' ' :: (c.dataType.text ++ tail c.modifiers)

def isKey (c : ColumnLine) : Bool := c.modifiers.any Modifier.isPrimaryKey

def reference? (c : ColumnLine) : Option Reference := c.modifiers.findSome? Modifier.reference?

def column (keys : List Text) (foreignKeys : List ForeignKey) (c : ColumnLine) : Column where
  name := c.name.text
  dataType := c.dataType.text
  isPrimaryKey := keys.contains c.name.text
  isNotNull := c.modifiers.any Modifier.isNotNull
  default? := c.modifiers.findSome? Modifier.default?
  constraints := if c.modifiers.any Modifier.isUnique then ["UNIQUE"] else []
  reference? := Table.lastTarget? foreignKeys c.name.text

end ColumnLine

def nameTexts (names : List Name) : List Text := names.map (·.text)

def listText (names : List Name) : Text := Text.join ", " (nameTexts names)

def groupText (names : List Name) : Text := '(' :: (listText names ++ [')'])

inductive Fragment where
  | column (c : ColumnLine)
  | primaryKey (columns : List Name) (nonempty : columns ≠ [])
  | foreignKey (name? : Option Name) (target : Name) (pairs : List (Name × Name))
      (nonempty : pairs ≠ [])

namespace Fragment

def keyText (columns : List Name) : Text := "PRIMARY KEY " ++ groupText columns

def referenceText (target : Name) (pairs : List (Name × Name)) : Text :=
  "FOREIGN KEY " ++ (groupText (pairs.map (·.1)) ++ (" REFERENCES " ++
    (target.text ++ ' ' :: groupText (pairs.map (·.2)))))

def text : Fragment → Text
  | column c => c.text
  | primaryKey columns _ => keyText columns
  | foreignKey (some name) target pairs _ =>
    "CONSTRAINT " ++ (name.text ++ ' ' :: referenceText target pairs)
  | foreignKey none target pairs _ => referenceText target pairs

def line? : Fragment → Option ColumnLine
  | column c => some c
  | _ => none

def keyColumns : Fragment → List Text
  | primaryKey columns _ => nameTexts columns
  | _ => []

def raw? : Fragment → Option Text
  | primaryKey columns _ => some (keyText columns)
  | _ => none

def keyName (table : Text) (columns : List Text) : Text :=
  table ++ '_' :: (Text.join ['_'] columns ++ "_fkey")

def clauseKeys (table : Text) (name? : Option Name) (target : Name) (pairs : List (Name × Name)) :
    List ForeignKey :=
  pairs.map fun p => ⟨p.1.text, ⟨target.text, p.2.text⟩,
    (name?.map (·.text)).getD (keyName table (nameTexts (pairs.map (·.1))))⟩

def foreignKeys (table : Text) : Fragment → List ForeignKey
  | column c =>
    c.reference?.toList.map fun r => ⟨c.name.text, r, keyName table [c.name.text]⟩
  | primaryKey _ _ => []
  | foreignKey name? target pairs _ => clauseKeys table name? target pairs

end Fragment

structure IndexLine where
  name : Name
  table : Name
  columns : List Name

def IndexLine.text (i : IndexLine) : Text :=
  "CREATE INDEX " ++ (i.name.text ++ (" ON " ++ (i.table.text ++ (" (" ++
    (listText i.columns ++ ");\n")))))

structure TableLines where
  name : Name
  fragments : List Fragment
  distinct : ((fragments.filterMap Fragment.line?).map fun c => c.name.text).Nodup

namespace TableLines

def bodyText (fragments : List Fragment) : Text := Text.join ", " (fragments.map Fragment.text)

def text (t : TableLines) : Text :=
  "CREATE TABLE " ++ (t.name.text ++ (" (" ++ (bodyText t.fragments ++ ");\n")))

def lines (t : TableLines) : List ColumnLine := t.fragments.filterMap Fragment.line?

def ownKeys (t : TableLines) : List Text :=
  (t.lines.filter ColumnLine.isKey).map fun c => c.name.text

def keys (t : TableLines) : List Text :=
  t.ownKeys ++
    ((t.fragments.flatMap Fragment.keyColumns).filter fun n => !t.ownKeys.contains n).eraseDups

def foreignKeys (t : TableLines) : List ForeignKey :=
  t.fragments.flatMap (Fragment.foreignKeys t.name.text)

def table (indexes : List IndexLine) (t : TableLines) : Table where
  name := t.name.text
  columns := t.lines.map (ColumnLine.column t.keys t.foreignKeys)
  primaryKeys := t.keys
  foreignKeys := t.foreignKeys
  indexes := (indexes.filter fun i => i.table.text = t.name.text).map fun i => listText i.columns
  constraints := t.fragments.filterMap Fragment.raw?

end TableLines

end Script

structure Script where
  tables : List Script.TableLines
  indexes : List Script.IndexLine
  distinct : (tables.map fun t => t.name.text).Nodup
  known : ∀ i ∈ indexes, ∃ t ∈ tables, t.name.text = i.table.text

namespace Script

def text (s : Script) : Text :=
  s.tables.flatMap TableLines.text ++ s.indexes.flatMap IndexLine.text

def schema (s : Script) : Schema where
  tables := s.tables.map (TableLines.table s.indexes)
  skipped := []

end Script

end SchemaDiagram
