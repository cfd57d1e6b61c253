import SchemaDiagram.Unicode.Property

set_option autoImplicit false

namespace SchemaDiagram

/-- Text is the list of its characters, so every reader and writer recurses on it. -/
abbrev Text := List Char

instance : Coe String Text := ⟨String.toList⟩

namespace Text
open Unicode

def trimStart (s : Text) : Text := s.dropWhile isBlank

def trimEnd (s : Text) : Text := (s.reverse.dropWhile isBlank).reverse

def trim (s : Text) : Text := trimEnd (trimStart s)

/-- The pieces between separators: the first one, and the others. The state before each
character decides whether it separates, and the character then advances the state. -/
def splitWith {σ : Type} (step : σ → Char → σ) (cut : σ → Char → Bool) : σ → Text → Text × List Text
  | _, [] => ([], [])
  | st, c :: s =>
    let rest := splitWith step cut (step st c) s
    if cut st c then ([], rest.1 :: rest.2) else (c :: rest.1, rest.2)

def spanWith {σ : Type} (step : σ → Char → σ) (stop : σ → Char → Bool) : σ → Text → Text × Text
  | _, [] => ([], [])
  | st, c :: s =>
    if stop st c then ([], c :: s)
    else
      let rest := spanWith step stop (step st c) s
      (c :: rest.1, rest.2)

/-- The pieces between the characters with property `p`; there is always at least one. -/
def splitAt (p : Char → Bool) (s : Text) : List Text :=
  let pieces := splitWith (fun st _ => st) (fun _ c => p c) () s
  pieces.1 :: pieces.2

def words (s : Text) : List Text := (splitAt isBlank s).filter (fun w => !w.isEmpty)

def join (separator : Text) (parts : List Text) : Text := separator.intercalate parts

def collapse (s : Text) : Text := join [' '] (words s)

def beginsWith (s head : Text) : Bool :=
  match s, head with
  | _, [] => true
  | [], _ :: _ => false
  | c :: s, h :: head => c.toLower == h.toLower && beginsWith s head

theorem spanWith_append {σ : Type} (step : σ → Char → σ) (stop : σ → Char → Bool) (st : σ)
    (s : Text) : (spanWith step stop st s).1 ++ (spanWith step stop st s).2 = s := by
  induction s generalizing st with
  | nil => rfl
  | cons c s ih => by_cases h : stop st c <;> simp [spanWith, h, ih]

theorem length_spanWith_le {σ : Type} (step : σ → Char → σ) (stop : σ → Char → Bool) (st : σ)
    (s : Text) : (spanWith step stop st s).2.length ≤ s.length := by
  conv => rhs; rw [← spanWith_append step stop st s]
  simp

end Text

end SchemaDiagram
