import SchemaDiagram.Text.Basic

set_option autoImplicit false

namespace SchemaDiagram.Dbml

def escapeChar (c : Char) : Text := if c = '\\' || c = '"' then ['\\', c] else [c]

def quoted (s : Text) : Text := ['"'] ++ s.flatMap escapeChar ++ ['"']

def isPlainStart (c : Char) : Bool := c.isAlpha || c = '_'

def isPlainPart (c : Char) : Bool := c.isAlphanum || c = '_'

def isPlain (s : Text) : Bool := (s.head?.any isPlainStart) && s.all isPlainPart

def namePart (s : Text) : Text := if isPlain s then s else quoted s

/-- A table or column name; each part between points is written by itself. -/
def name (s : Text) : Text := Text.join ['.'] ((Text.splitAt (· = '.') s).map namePart)

end SchemaDiagram.Dbml
