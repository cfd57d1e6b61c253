import SchemaDiagram.Text.Basic

/-!
JSON documents and their layout: every member and element on a line of its own, two spaces
deeper than what holds it; only the empty ones stay on one line.
-/

set_option autoImplicit false

namespace SchemaDiagram

/-- The JSON values that a schema needs; members keep their order. -/
inductive Json where
  | null
  | bool (value : Bool)
  | string (value : Text)
  | array (items : List Json)
  | object (members : List (Text × Json))
  deriving Repr

namespace Json

def optional : Option Text → Json
  | none => null
  | some s => string s

def strings (items : List Text) : Json := array (items.map string)

def hexDigit (n : Nat) : Char := Char.ofNat (if n < 10 then n + 48 else n + 87)

def escapeChar (c : Char) : Text :=
  if c = '"' then ['\\', '"']
  else if c = '\\' then ['\\', '\\']
  else if c = '\x08' then ['\\', 'b']
  else if c = '\t' then ['\\', 't']
  else if c = '\n' then ['\\', 'n']
  else if c = '\x0c' then ['\\', 'f']
  else if c = '\r' then ['\\', 'r']
  else if c.toNat < 32 then
    ['\\', 'u', '0', '0', hexDigit (c.toNat / 16), hexDigit (c.toNat % 16)]
  else [c]

def literal (s : Text) : Text := ['"'] ++ s.flatMap escapeChar ++ ['"']

def newLine (depth : Nat) : Text := '\n' :: List.replicate (2 * depth) ' '

/-- Members or elements in brackets, given with their values laid out one level deeper. -/
def enclose (left right : Char) (depth : Nat) (lines : List Text) : Text :=
  match lines with
  | [] => [left, right]
  | _ =>
    [left] ++ Text.join [','] (lines.map (newLine (depth + 1) ++ ·)) ++ newLine depth ++ [right]

mutual

def layout (depth : Nat) : Json → Text
  | null => "null".toList
  | bool true => "true".toList
  | bool false => "false".toList
  | string s => literal s
  | array items => enclose '[' ']' depth (layoutItems (depth + 1) items)
  | object members => enclose '\x7b' '\x7d' depth (layoutMembers (depth + 1) members)

def layoutItems (depth : Nat) : List Json → List Text
  | [] => []
  | v :: rest => layout depth v :: layoutItems depth rest

def layoutMembers (depth : Nat) : List (Text × Json) → List Text
  | [] => []
  | (key, v) :: rest => (literal key ++ ": ".toList ++ layout depth v) :: layoutMembers depth rest

end

def render (v : Json) : Text := layout 0 v

end Json

end SchemaDiagram
