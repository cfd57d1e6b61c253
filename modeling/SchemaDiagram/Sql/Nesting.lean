import SchemaDiagram.Sql.Quoting

/-!
Parentheses outside quotes. A text is cut at the commas of depth zero, a group ends at the
parenthesis that matches its opening one, and a value ends where its own text does.
-/

set_option autoImplicit false

namespace SchemaDiagram.Sql
open Unicode

structure Nesting where
  quoting : Quoting
  depth : Nat
  deriving DecidableEq, Repr

namespace Nesting

def start : Nesting := ⟨.start, 0⟩

def opened : Nesting := ⟨.start, 1⟩

/-- A closing parenthesis without a partner leaves the depth at zero. -/
def step (n : Nesting) (c : Char) : Nesting where
  quoting := n.quoting.step c
  depth :=
    if n.quoting.covers c then n.depth
    else if c = '(' then n.depth + 1
    else if c = ')' then n.depth - 1
    else n.depth

def separates (n : Nesting) (c : Char) : Bool :=
  !n.quoting.covers c && c = ',' && n.depth = 0

def closes (n : Nesting) (c : Char) : Bool :=
  !n.quoting.covers c && c = ')' && n.depth = 1

/-- A value stops at a comma or a blank, or at the end of a group that began before it. -/
def stops (n : Nesting) (c : Char) : Bool :=
  !n.quoting.covers c && n.depth = 0 && (c = ')' || c = ',' || isBlank c)

end Nesting

/-- The parts between commas outside all groups and quotes, trimmed, without the empty ones. -/
def topLevelParts (s : Text) : List Text :=
  let pieces := Text.splitWith Nesting.step Nesting.separates .start s
  ((pieces.1 :: pieces.2).map Text.trim).filter (fun p => !p.isEmpty)

/-- From the text after an opening parenthesis: what the group holds, and what follows it. -/
def group? (s : Text) : Option (Text × Text) :=
  match Text.spanWith Nesting.step Nesting.closes .opened s with
  | (inside, _ :: rest) => some (inside, rest)
  | (_, []) => none

def value (s : Text) : Text := (Text.spanWith Nesting.step Nesting.stops .start s).1

theorem length_of_group? {s inside rest : Text} (h : group? s = some (inside, rest)) :
    rest.length < s.length := by
  have hle := Text.length_spanWith_le Nesting.step Nesting.closes .opened s
  unfold group? at h
  split at h
  · rename_i i d r heq
    simp only [Option.some.injEq, Prod.mk.injEq] at h
    obtain ⟨-, rfl⟩ := h
    simp [heq] at hle
    omega
  · simp at h

end SchemaDiagram.Sql
