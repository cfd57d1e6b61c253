import SchemaDiagram.Text.Width

/-!
Reading words and marks at the beginning of a text. A reader gives back what follows, and its
`_suffix` law says that this is an end of the input. `search?` looks for the first place where
a reader succeeds on a word boundary.
-/

set_option autoImplicit false

namespace SchemaDiagram.Sql
open Unicode

/-- Case is ignored by simple folding, so the long s and the Kelvin sign are spellings too. -/
def spells (capital c : Char) : Bool :=
  c = capital || c = capital.toLower || (capital = 'S' && c = 'ſ') ||
    (capital = 'K' && c = '\u212A')

def keyword? : Text → Text → Option Text
  | [], s => some s
  | _ :: _, [] => none
  | k :: w, c :: s => if spells k c then keyword? w s else none

def skipBlanks (s : Text) : Text := s.dropWhile isBlank

def blanks? : Text → Option Text
  | [] => none
  | c :: s => if isBlank c then some (skipBlanks s) else none

def mark? (m : Char) : Text → Option Text
  | [] => none
  | c :: s => if c = m then some s else none

def phrase? : List Text → Text → Option Text
  | [], s => some s
  | [w], s => keyword? w s
  | w :: ws, s => do
    let s ← keyword? w s
    let s ← blanks? s
    phrase? ws s

def clause? : List Text → Text → Option Text
  | [], s => some s
  | w :: ws, s => do
    let s ← keyword? w s
    let s ← blanks? s
    clause? ws s

def optional (read : Text → Option Text) (s : Text) : Text := (read s).getD s

/-- Reads `( … )` up to the first closing parenthesis, blanks before it allowed. -/
def parenthesized? (s : Text) : Option (Text × Text) := do
  let s ← mark? '(' (skipBlanks s)
  let rest ← mark? ')' (s.dropWhile (· ≠ ')'))
  pure (s.takeWhile (· ≠ ')'), rest)

def beginsWord : Option Char → Bool
  | none => true
  | some c => !isWordChar c

def endsWord : Text → Bool
  | [] => true
  | c :: _ => !isWordChar c

/-- Reads words with blanks between them that end at a word boundary. -/
def wholePhrase? (ws : List Text) (s : Text) : Option Text := do
  let rest ← phrase? ws s
  if endsWord rest then some rest else none

/-- What a search found, and the byte offsets where it begins and ends. -/
structure Found (α : Type) where
  start : Nat
  stop : Nat
  value : α
  deriving Repr

/-- The search from a place: the character before it, the number of characters that belong to a
match already passed over, and its offset. Matches do not overlap, and `accept` picks one by
its offset. -/
def searchFrom? {α : Type} (read : Text → Option (α × Text)) (accept : Nat → Bool) :
    Option Char → Nat → Nat → Text → Option (Found α)
  | _, _, _, [] => none
  | _, passed + 1, offset, c :: s =>
    searchFrom? read accept (some c) passed (offset + c.utf8Size) s
  | before, 0, offset, c :: s =>
    match if beginsWord before then read (c :: s) else none with
    | some (value, rest) =>
      if accept offset then
        some ⟨offset, offset + (Text.width (c :: s) - Text.width rest), value⟩
      else
        searchFrom? read accept (some c) (s.length - rest.length) (offset + c.utf8Size) s
    | none => searchFrom? read accept (some c) 0 (offset + c.utf8Size) s

/-- The first match that begins at a word boundary and at an accepted offset. -/
def search? {α : Type} (read : Text → Option (α × Text)) (accept : Nat → Bool) (s : Text) :
    Option (Found α) :=
  searchFrom? read accept none 0 0 s

def find? (read : Text → Option Text) (s : Text) : Option (Found Unit) :=
  search? (fun t => (read t).map fun rest => ((), rest)) (fun _ => true) s

theorem keyword?_suffix {w s r : Text} (h : keyword? w s = some r) :
    r <:+ s ∧ r.length + w.length = s.length := by
  induction w generalizing s with
  | nil => simp [keyword?] at h; simp [h]
  | cons k w ih =>
    cases s with
    | nil => simp [keyword?] at h
    | cons c s =>
      simp only [keyword?] at h
      split at h
      · obtain ⟨hs, hl⟩ := ih h
        exact ⟨hs.trans (List.suffix_cons c s), by simp; omega⟩
      · simp at h

theorem skipBlanks_suffix (s : Text) : skipBlanks s <:+ s := List.dropWhile_suffix _

theorem blanks?_suffix {s r : Text} (h : blanks? s = some r) : r <:+ s := by
  cases s with
  | nil => simp [blanks?] at h
  | cons c s =>
    simp only [blanks?] at h
    split at h
    · simp at h; subst h; exact (skipBlanks_suffix s).trans (List.suffix_cons c s)
    · simp at h

theorem mark?_suffix {m : Char} {s r : Text} (h : mark? m s = some r) : r <:+ s := by
  cases s with
  | nil => simp [mark?] at h
  | cons c s =>
    simp only [mark?] at h
    split at h
    · simp at h; subst h; exact List.suffix_cons c s
    · simp at h

theorem clause?_suffix {ws : List Text} {s r : Text} (h : clause? ws s = some r) : r <:+ s := by
  induction ws generalizing s with
  | nil => simp [clause?] at h; simp [h]
  | cons w ws ih =>
    simp only [clause?, Option.bind_eq_bind, Option.bind_eq_some_iff] at h
    obtain ⟨t, ht, u, hu, hr⟩ := h
    exact ((ih hr).trans (blanks?_suffix hu)).trans (keyword?_suffix ht).1

theorem optional_suffix {read : Text → Option Text} (hread : ∀ s r, read s = some r → r <:+ s)
    (s : Text) : optional read s <:+ s := by
  unfold optional
  cases h : read s with
  | none => exact List.suffix_refl s
  | some r => exact hread s r h

end SchemaDiagram.Sql
