import SchemaDiagram.Text.Width

set_option autoImplicit false

namespace SchemaDiagram.Sql

structure Location where
  line : Nat
  column : Nat
  deriving DecidableEq, Repr

namespace Location

def start : Location := ⟨1, 1⟩

def step (l : Location) (c : Char) : Location :=
  if c = '\n' then ⟨l.line + 1, 1⟩ else ⟨l.line, l.column + 1⟩

def after (l : Location) (s : Text) : Location := s.foldl step l

end Location

structure Line where
  offset : Nat
  text : Text

def laterLines : Nat → Text → List Line
  | _, [] => []
  | offset, c :: s =>
    let rest := laterLines (offset + c.utf8Size) s
    if c = '\n' then ⟨offset + c.utf8Size, s⟩ :: rest else rest

def lines (s : Text) : Array Line := (⟨0, s⟩ :: laterLines 0 s).toArray

/-- The byte offset of a place and the text from there on. There is none behind the last
character. -/
def Location.find? (l : Location) (lines : Array Line) : Option (Nat × Text) := do
  let line ← if l.line = 0 then none else lines[l.line - 1]?
  let passed ← if l.column = 0 then none else some (l.column - 1)
  match line.text.drop passed with
  | [] => none
  | c :: rest => pure (line.offset + Text.width (line.text.take passed), c :: rest)

end SchemaDiagram.Sql
