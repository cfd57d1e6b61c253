import SchemaDiagram.Text.Basic

/-!
Which characters of a text stand inside quotes. One pass over the text knows quoted names, plain
literals, and escape literals, whose opening quote directly follows a standalone E. A doubled
quote closes a span and opens it again at once.
-/

set_option autoImplicit false

namespace SchemaDiagram.Sql
open Unicode

/-- What stands directly before a place outside quotes. -/
inductive Before where
  | gap
  /-- A character of a word. -/
  | word
  /-- An E that is a word by itself so far. -/
  | escapeMark
  /-- The closing quote of an escape literal. -/
  | escapeLiteral
  deriving DecidableEq, Repr

inductive Quoting where
  | outside (before : Before)
  | plain (quote : Char)
  | escape
  /-- Inside an escape literal, after a backslash. -/
  | escaped
  deriving DecidableEq, Repr

namespace Quoting

def start : Quoting := .outside .gap

def isOpen : Quoting → Bool
  | .outside _ => false
  | _ => true

def isQuote (c : Char) : Bool := c = '\'' || c = '"'

/-- Whether the next character, when it is `c`, belongs to a quoted span; its two delimiters do. -/
def covers (q : Quoting) (c : Char) : Bool := q.isOpen || isQuote c

def Before.next (b : Before) (c : Char) : Before :=
  if isAlphanumeric c || c = '_' then
    if (c = 'E' || c = 'e') && (b = .gap || b = .escapeLiteral) then .escapeMark else .word
  else .gap

def step : Quoting → Char → Quoting
  | .outside b, c =>
    if c = '\'' then
      if b = .escapeMark || b = .escapeLiteral then .escape else .plain '\''
    else if c = '"' then .plain '"'
    else .outside (Before.next b c)
  | .plain q, c => if c = q then .outside .gap else .plain q
  | .escape, c =>
    if c = '\\' then .escaped
    else if c = '\'' then .outside .escapeLiteral
    else .escape
  | .escaped, _ => .escape

def after (q : Quoting) (s : Text) : Quoting := s.foldl step q

@[simp] theorem after_append (q : Quoting) (s t : Text) :
    q.after (s ++ t) = (q.after s).after t := by simp [after]

/-- Every character inside quotes becomes as many spaces as it takes bytes, so byte offsets stay
the same; the quotes themselves are kept. -/
def maskFrom (q : Quoting) : Text → Text
  | [] => []
  | c :: s =>
    (if q.isOpen && (q.step c).isOpen then List.replicate c.utf8Size ' ' else [c]) ++
      maskFrom (q.step c) s

def mask (s : Text) : Text := maskFrom start s

end Quoting

end SchemaDiagram.Sql
