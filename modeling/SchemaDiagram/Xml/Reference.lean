import SchemaDiagram.Text.Digit
import SchemaDiagram.Xml.Markup

/-!
The text that character data and attribute values stand for: references are replaced by their
characters, and line ends become line feeds, or spaces in an attribute.
-/

set_option autoImplicit false

namespace SchemaDiagram.Xml
open Text

/-- The number that digits write, if it fits into 32 bits. -/
def number? (base : Nat) (digits : Text) : Option Nat :=
  if digits.isEmpty || UInt32.size ≤ digitsValue base digits then none
  else some (digitsValue base digits)

/-- The character of a code point; what is no character becomes the replacement character. -/
def characterOf (n : Nat) : Char := if isScalar n then Char.ofNat n else '\uFFFD'

def namedCharacters : List (Text × Char) :=
  [("quot".toList, '"'), ("amp".toList, '&'), ("apos".toList, '\''), ("lt".toList, '<'),
   ("gt".toList, '>')]

def referenced? : Text → Option Char
  | '#' :: 'x' :: digits => numbered? 16 isHexDigit digits
  | '#' :: digits => numbered? 10 Char.isDigit digits
  | name => namedCharacters.lookup name
where
  numbered? (base : Nat) (isDigit : Char → Bool) (digits : Text) : Option Char := do
    if digits.all isDigit then
      let c := characterOf (← number? base digits)
      if isAllowed c then some c else none
    else none

structure Written where
  char : Char
  isReference : Bool
  deriving DecidableEq, Repr

/-- The characters of a text. An ampersand begins a reference that ends with a semicolon; the
argument holds what was passed of one. -/
def characters? : Option Text → Text → Option (List Written)
  | none, [] => some []
  | some _, [] => none
  | none, c :: s =>
    if c = '&' then characters? (some []) s else (characters? none s).map (⟨c, false⟩ :: ·)
  | some name, c :: s =>
    if c = ';' then do
      let char ← referenced? name
      let rest ← characters? none s
      some (⟨char, true⟩ :: rest)
    else characters? (some (name ++ [c])) s

/-- An attribute value: line ends and tabs are spaces, a pair of return and line feed one. -/
def attributeText : List Written → Text
  | [] => []
  | ⟨c, true⟩ :: rest => c :: attributeText rest
  | ⟨c, false⟩ :: rest =>
    if c = '\r' && rest.head? = some ⟨'\n', false⟩ then attributeText rest
    else (if isSpace c then ' ' else c) :: attributeText rest

/-- Adds a character to a text held backwards. A return becomes a line feed once the next
character is known, and a line feed after it is dropped. -/
def addToLine (backwards : Text) (c : Char) (isLast : Bool) : Text :=
  match backwards with
  | '\r' :: rest =>
    if isLast && c = '\r' then '\n' :: '\n' :: rest
    else if c = '\n' then '\n' :: rest
    else c :: '\n' :: rest
  | _ => if isLast && c = '\r' then '\n' :: backwards else c :: backwards

/-- Character data. Referenced characters, and the one after them, are taken as they are; the
flag tells that the next character comes after a reference. -/
def dataText (backwards : Text) (asIs : Bool) : List Written → Text
  | [] => backwards.reverse
  | ⟨c, true⟩ :: rest => dataText (c :: backwards) true rest
  | ⟨c, false⟩ :: rest =>
    dataText (if asIs then c :: backwards else addToLine backwards c rest.isEmpty) false rest

end SchemaDiagram.Xml
