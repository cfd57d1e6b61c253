import SchemaDiagram.Unicode.LetterTable
import SchemaDiagram.Unicode.MarkTable
import SchemaDiagram.Unicode.NumberTable
import SchemaDiagram.Unicode.RecentTable

/-!
The character classes that the readers ask for: blanks, letters, numbers, and the characters of
which names and words are made. The first ones follow version 17 of the standard; names and words
are read by version 16, so the classes for them leave the newer characters out.
-/

set_option autoImplicit false

namespace SchemaDiagram.Unicode

/-- The characters with property White_Space. -/
def blanks : Ranges :=
  [(0x9, 0xD), (0x20, 0x20), (0x85, 0x85), (0xA0, 0xA0), (0x1680, 0x1680), (0x2000, 0x200A),
   (0x2028, 0x2029), (0x202F, 0x202F), (0x205F, 0x205F), (0x3000, 0x3000)]

def connectors : Ranges :=
  [(0x5F, 0x5F), (0x203F, 0x2040), (0x2054, 0x2054), (0xFE33, 0xFE34), (0xFE4D, 0xFE4F),
   (0xFF3F, 0xFF3F)]

def joiners : Ranges := [(0x200C, 0x200D)]

def isBlank (c : Char) : Bool := Ranges.has blanks c.toNat

def isLetter (c : Char) : Bool := Ranges.has letters c.toNat

def isDecimalDigit (c : Char) : Bool := Ranges.has decimalDigits c.toNat

def isNumber (c : Char) : Bool :=
  isDecimalDigit c || Ranges.has letterNumbers c.toNat || Ranges.has otherNumbers c.toNat

def isAlphabetic (c : Char) : Bool :=
  isLetter c || Ranges.has letterNumbers c.toNat || Ranges.has alphabeticMarks c.toNat

def isAlphanumeric (c : Char) : Bool := isAlphabetic c || isNumber c

/-- Whether version 16 has the character, if it is a letter, a number or a mark. -/
def isEstablished (c : Char) : Bool := !Ranges.has recent c.toNat

def isNameLetter (c : Char) : Bool := isLetter c && isEstablished c

def isNameNumber (c : Char) : Bool := isNumber c && isEstablished c

def isNameDigit (c : Char) : Bool := isDecimalDigit c && isEstablished c

def isWordChar (c : Char) : Bool :=
  ((isAlphabetic c || Ranges.has marks c.toNat || isDecimalDigit c) && isEstablished c) ||
    Ranges.has connectors c.toNat || Ranges.has joiners c.toNat

end SchemaDiagram.Unicode
