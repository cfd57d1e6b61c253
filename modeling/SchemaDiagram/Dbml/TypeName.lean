import SchemaDiagram.Dbml.Quoted
import SchemaDiagram.Unicode.Case

set_option autoImplicit false

namespace SchemaDiagram.Dbml
open Unicode

def typeNames : List (Text × Text) :=
  [("SERIAL", "int"), ("INTEGER", "int"), ("BIGINT", "bigint"), ("SMALLINT", "smallint"),
   ("DECIMAL", "decimal"), ("NUMERIC", "decimal"), ("REAL", "float"),
   ("DOUBLE PRECISION", "double"), ("BOOLEAN", "boolean"), ("CHAR", "char"),
   ("VARCHAR", "varchar"), ("CHARACTER VARYING", "varchar"), ("TEXT", "text"), ("DATE", "date"),
   ("TIME", "time"), ("TIMESTAMP", "timestamp"), ("TIMESTAMPTZ", "timestamptz"),
   ("JSON", "json"), ("JSONB", "jsonb")]

def baseType (base : Text) : Text :=
  ((capitals? base).bind fun capitals => typeNames.lookup capitals).getD (lower base)

theorem baseType_cases (b : Text) : baseType b = lower b ∨ baseType b ∈ typeNames.map Prod.snd := by
  unfold baseType
  cases hname : (capitals? b).bind fun capitals => typeNames.lookup capitals with
  | none => exact .inl rfl
  | some name =>
    obtain ⟨capitals, -, hlookup⟩ := Option.bind_eq_some_iff.1 hname
    obtain ⟨front, behind, hnames, -⟩ := List.lookup_eq_some_iff.1 hlookup
    have hmem : (capitals, name) ∈ typeNames :=
      hnames ▸ List.mem_append_right front List.mem_cons_self
    exact .inr (List.mem_map_of_mem (f := Prod.snd) hmem)

def isParameterMark (c : Char) : Bool := c = '(' || c = '['

/-- What follows the last closing parenthesis, or everything where there is none. -/
def afterParameters (s : Text) : Text := (Text.splitAt (· = ')') s).getLastD []

/-- A declared type with its parameters. Where blanks stand outside the parameters it is put in
double quotes, since a type is one token. -/
def dataType (declared : Text) : Text :=
  let declared := Text.trim declared
  let base := baseType (Text.trimEnd (declared.takeWhile (fun c => !isParameterMark c)))
  let parameters := declared.dropWhile (fun c => !isParameterMark c)
  let written := base ++ lower parameters
  if base.any isBlank || (afterParameters parameters).any isBlank then ['"'] ++ written ++ ['"']
  else written

/-- A default: the present time, a truth value or a number is written as such, and anything else
as a quoted string. -/
def defaultValue (declared : Text) : Text :=
  let value := Text.trim declared
  let capitals := (capitals? value).getD []
  if capitals = "CURRENT_TIMESTAMP" || capitals = "CURRENT_DATE" || capitals = "NOW()" then
    "`now()`"
  else if capitals = "TRUE" || capitals = "FALSE" then lower value
  else if !value.isEmpty && value.all Char.isDigit then value
  else quoted value

end SchemaDiagram.Dbml
