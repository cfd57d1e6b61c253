import SchemaDiagram.Sql.Identifier

/-!
The type of a column: one of the spellings with several words, or a word with an optional second
one after a point; then an optional list of parameters and any number of array marks.
-/

set_option autoImplicit false

namespace SchemaDiagram.Sql
open Unicode

def isTypePart (c : Char) : Bool := isNameStart c || isNameNumber c

def typeWord? : Text → Option Text
  | [] => none
  | c :: s => if isNameStart c then some (s.dropWhile isTypePart) else none

def precision? (s : Text) : Option Text := do
  let s := skipBlanks (← mark? '(' (skipBlanks s))
  let rest := s.dropWhile isNameDigit
  if rest.length < s.length then mark? ')' (skipBlanks rest) else none

def zonedTime? (s : Text) : Option Text := do
  let s ← keyword? "TIMESTAMP" s <|> keyword? "TIME" s
  let s ← blanks? (optional precision? s)
  let s ← keyword? "WITHOUT" s <|> keyword? "WITH" s
  let s ← blanks? s
  phrase? ["TIME", "ZONE"] s

/-- A type word, with a second one directly after a point. -/
def simpleType? (s : Text) : Option Text := do
  let rest ← typeWord? s
  pure (optional (fun t => do typeWord? (← mark? '.' t)) rest)

def typeName? (s : Text) : Option Text :=
  phrase? ["DOUBLE", "PRECISION"] s <|> phrase? ["CHARACTER", "VARYING"] s <|>
    phrase? ["BIT", "VARYING"] s <|> zonedTime? s <|> simpleType? s

def arrayMark? (s : Text) : Option Text := do
  let s := skipBlanks (← mark? '[' (skipBlanks s))
  mark? ']' (skipBlanks (s.dropWhile isNameDigit))

theorem length_of_arrayMark? {s r : Text} (h : arrayMark? s = some r) : r.length < s.length := by
  simp only [arrayMark?, Option.bind_eq_bind, Option.bind_eq_some_iff] at h
  obtain ⟨t, ht, hr⟩ := h
  have h1 := (mark?_suffix hr).length_le
  have h2 := (skipBlanks_suffix ((skipBlanks t).dropWhile isNameDigit)).length_le
  have h3 := (List.dropWhile_suffix isNameDigit (l := skipBlanks t)).length_le
  have h4 := (skipBlanks_suffix t).length_le
  have h5 := (skipBlanks_suffix s).length_le
  have h6 : t.length < (skipBlanks s).length := by
    cases hs : skipBlanks s with
    | nil => simp [hs, mark?] at ht
    | cons c u =>
      rw [hs] at ht
      simp only [mark?] at ht
      split at ht
      · simp at ht; subst ht; simp
      · simp at ht
  omega

def skipArrayMarks (s : Text) : Text :=
  match _h : arrayMark? s with
  | some r => skipArrayMarks r
  | none => s
termination_by s.length
decreasing_by exact length_of_arrayMark? _h

def dataType? (s : Text) : Option (Text × Text) := do
  let named ← typeName? s
  let rest := skipArrayMarks (optional (fun t => (parenthesized? t).map Prod.snd) named)
  pure (s.take (s.length - rest.length), rest)

end SchemaDiagram.Sql
