import SchemaDiagram.Schema.Basic
import SchemaDiagram.Sql.DataType
import SchemaDiagram.Sql.Nesting

/-!
One column declaration: a name, a type, and modifiers in any order. The modifiers are looked for
in the rest of the fragment with the contents of its literals masked; masking keeps byte offsets,
so what was found there is cut from the rest itself.
-/

set_option autoImplicit false

namespace SchemaDiagram.Sql

/-- A column, and the target of its own `REFERENCES` clause. -/
structure ColumnDeclaration where
  column : Column
  reference? : Option Reference
  deriving DecidableEq, Repr

def columnHead? (s : Text) : Option (Text × Text × Text) := do
  let (name, rest) ← name? s
  let rest ← blanks? rest
  let (dataType, tail) ← dataType? rest
  pure (normalizeName name, dataType, tail)

theorem columnHead?_eq_some_iff {s name dataType tail : Text} :
    columnHead? s = some (name, dataType, tail) ↔ ∃ written a b, name? s = some (written, a) ∧
      blanks? a = some b ∧ dataType? b = some (dataType, tail) ∧ normalizeName written = name := by
  simp only [columnHead?, Option.bind_eq_bind, Option.bind_eq_some_iff, Option.pure_def,
    Option.some.injEq, Prod.mk.injEq]
  constructor
  · rintro ⟨⟨written, a⟩, hname, b, hblanks, ⟨type, rest⟩, htype, rfl, rfl, rfl⟩
    exact ⟨written, a, b, hname, hblanks, htype, rfl⟩
  · rintro ⟨written, a, b, hname, hblanks, htype, rfl⟩
    exact ⟨(written, a), hname, b, hblanks, (dataType, tail), htype, rfl, rfl, rfl⟩

def hasPhrase (ws : List Text) (masked : Text) : Bool := (find? (wholePhrase? ws) masked).isSome

def defaultMark? (masked : Text) : Option (Found Unit) := find? (clause? ["DEFAULT"]) masked

def defaultValue? (tail masked : Text) : Option Text := do
  let found ← defaultMark? masked
  let v := value (← Text.dropBytes? found.stop tail)
  if v.isEmpty then none else some v

def checkMark? (masked : Text) : Option (Found Unit) :=
  find? (fun t => do mark? '(' (skipBlanks (← keyword? "CHECK" t))) masked

def checkClause? (tail masked : Text) : Option Text := do
  let found ← checkMark? masked
  let head ← Text.slice? found.start found.stop tail
  let (inside, _) ← group? (← Text.dropBytes? found.stop tail)
  pure (head ++ inside ++ [')'])

def referenceClause? (s : Text) : Option (Reference × Text) := do
  let s ← clause? ["REFERENCES"] s
  let (table, s) ← qualifiedName? s
  let s ← mark? '(' (skipBlanks s)
  let (column, s) ← name? (skipBlanks s)
  let s ← mark? ')' (skipBlanks s)
  pure (⟨normalizeName table.text, normalizeName column⟩, s)

/-- The first reference that does not begin inside a literal. -/
def inlineReference? (tail masked : Text) : Option Reference :=
  (search? referenceClause?
    (fun offset => (Text.dropBytes? offset masked).any (Text.beginsWith · "REFERENCES"))
    tail).map Found.value

/-- Reads one column declaration; a fragment that does not begin with name and type is none. -/
def ColumnDeclaration.ofFragment? (fragment : Text) : Option ColumnDeclaration := do
  let (name, dataType, tail) ← columnHead? (Text.trim fragment)
  let masked := Quoting.mask tail
  let unique : List Text := if hasPhrase ["UNIQUE"] masked then ["UNIQUE"] else []
  pure {
    column := {
      name, dataType
      isPrimaryKey := hasPhrase ["PRIMARY", "KEY"] masked
      isNotNull := hasPhrase ["NOT", "NULL"] masked
      default? := defaultValue? tail masked
      constraints := unique ++ (checkClause? tail masked).toList }
    reference? := inlineReference? tail masked }

end SchemaDiagram.Sql
