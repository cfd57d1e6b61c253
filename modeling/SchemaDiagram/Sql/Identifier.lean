import SchemaDiagram.Sql.Keyword

/-!
Names of tables and columns. A name is bare or in double quotes, and a table name may have
two parts with a point between them. The schema keeps names without their quotes.
-/

set_option autoImplicit false

namespace SchemaDiagram.Sql
open Unicode

/-- Letters and the low line; the iota written below a vowel counts as the letter iota, since
case is ignored. -/
def isNameStart (c : Char) : Bool := isNameLetter c || c = '_' || c = '\u0345'

def isNamePart (c : Char) : Bool := isNameStart c || isNameNumber c || c = '$'

def bareName? : Text → Option (Text × Text)
  | [] => none
  | c :: s =>
    if isNameStart c then some (c :: s.takeWhile isNamePart, s.dropWhile isNamePart) else none

/-- A name in double quotes, which are kept; it is not empty and holds no such quote. -/
def quotedName? : Text → Option (Text × Text)
  | '"' :: s =>
    match s.takeWhile (· ≠ '"'), s.dropWhile (· ≠ '"') with
    | c :: inside, _ :: rest => some ('"' :: c :: (inside ++ ['"']), rest)
    | _, _ => none
  | _ => none

def name? (s : Text) : Option (Text × Text) := quotedName? s <|> bareName? s

/-- A table name as written: all that precedes its last part, and the last part. -/
structure QualifiedName where
  lead : Text
  last : Text
  deriving DecidableEq, Repr

def QualifiedName.text (n : QualifiedName) : Text := n.lead ++ n.last

def secondPart? (s : Text) : Option (Text × Text × Text) := do
  let afterPoint ← mark? '.' (skipBlanks s)
  let begin := skipBlanks afterPoint
  let (part, rest) ← name? begin
  pure (s.take (s.length - begin.length), part, rest)

def qualifiedName? (s : Text) : Option (QualifiedName × Text) := do
  let (first, rest) ← name? s
  match secondPart? rest with
  | some (point, second, rest) => pure (⟨first ++ point, second⟩, rest)
  | none => pure (⟨[], first⟩, rest)

def stripQuotes (s : Text) : Text :=
  ((s.dropWhile (· = '"')).reverse.dropWhile (· = '"')).reverse

/-- A name without quotes; each part between points is trimmed and stripped by itself. -/
def normalizeName (s : Text) : Text :=
  Text.join ['.'] ((Text.splitAt (· = '.') s).map fun part => stripQuotes (Text.trim part))

/-- The names of a list written between parentheses; what normalizes to nothing is left out. -/
def nameList (s : Text) : List Text :=
  ((Text.splitAt (· = ',') s).map normalizeName).filter (fun n => !n.isEmpty)

def unqualified (s : Text) : Text := (Text.splitAt (· = '.') s).getLastD []

def foreignKeyName (table : Text) (columns : List Text) : Text :=
  unqualified table ++ ['_'] ++ Text.join ['_'] columns ++ "_fkey"

theorem bareName?_append {s n r : Text} (h : bareName? s = some (n, r)) : n ++ r = s := by
  cases s with
  | nil => simp [bareName?] at h
  | cons c s =>
    simp only [bareName?] at h
    split at h
    · simp at h
      obtain ⟨rfl, rfl⟩ := h
      simp
    · simp at h

theorem quotedName?_append {s n r : Text} (h : quotedName? s = some (n, r)) : n ++ r = s := by
  unfold quotedName? at h
  split at h
  · rename_i s
    split at h
    · rename_i c inside d rest ht hd
      simp only [Option.some.injEq, Prod.mk.injEq] at h
      obtain ⟨rfl, rfl⟩ := h
      have hquote : d = '"' := by
        have := List.head?_dropWhile_not (fun x => decide (x ≠ '"')) s
        rw [hd] at this
        simpa using this
      have happ := List.takeWhile_append_dropWhile (p := fun x => decide (x ≠ '"')) (l := s)
      rw [ht, hd, hquote] at happ
      simp [← happ]
    · simp at h
  · simp at h

theorem name?_append {s n r : Text} (h : name? s = some (n, r)) : n ++ r = s := by
  simp only [name?, Option.orElse_eq_orElse, Option.orElse_eq_or, Option.or_eq_some_iff] at h
  rcases h with h | ⟨-, h⟩
  · exact quotedName?_append h
  · exact bareName?_append h

theorem name?_suffix {s n r : Text} (h : name? s = some (n, r)) : r <:+ s := ⟨n, name?_append h⟩

theorem secondPart?_append {s p n r : Text} (h : secondPart? s = some (p, n, r)) :
    p ++ n ++ r = s := by
  simp only [secondPart?, Option.bind_eq_bind, Option.bind_eq_some_iff, Option.pure_def,
    Option.some.injEq, Prod.mk.injEq] at h
  obtain ⟨t, ht, ⟨n', r'⟩, hn, rfl, rfl, rfl⟩ := h
  obtain ⟨u, hu⟩ := (skipBlanks_suffix t).trans ((mark?_suffix ht).trans (skipBlanks_suffix s))
  rw [List.append_assoc, name?_append hn]
  simp [← hu]

theorem qualifiedName?_append {s r : Text} {n : QualifiedName}
    (h : qualifiedName? s = some (n, r)) : n.text ++ r = s := by
  simp only [qualifiedName?, Option.bind_eq_bind, Option.bind_eq_some_iff] at h
  obtain ⟨⟨first, rest⟩, hfirst, h⟩ := h
  have hs := name?_append hfirst
  cases hsecond : secondPart? rest with
  | none =>
    simp [hsecond] at h
    obtain ⟨rfl, rfl⟩ := h
    simpa [QualifiedName.text] using hs
  | some q =>
    obtain ⟨point, second, rest'⟩ := q
    simp [hsecond] at h
    obtain ⟨rfl, rfl⟩ := h
    rw [← hs, ← secondPart?_append hsecond]
    simp [QualifiedName.text]

theorem qualifiedName?_suffix {s r : Text} {n : QualifiedName}
    (h : qualifiedName? s = some (n, r)) : r <:+ s := ⟨n.text, qualifiedName?_append h⟩

end SchemaDiagram.Sql
