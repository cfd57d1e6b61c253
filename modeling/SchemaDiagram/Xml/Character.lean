import SchemaDiagram.Text.Basic

set_option autoImplicit false

namespace SchemaDiagram.Xml
open Unicode

def isSpace (c : Char) : Bool := c = ' ' || c = '\t' || c = '\n' || c = '\r'

def isAllowed (c : Char) : Bool :=
  if c.toNat < 0x20 then isSpace c else c ≠ '\uFFFE' && c ≠ '\uFFFF'

def nameStarts : Ranges :=
  [(0xC0, 0xD6), (0xD8, 0xF6), (0xF8, 0x2FF), (0x370, 0x37D), (0x37F, 0x1FFF), (0x200C, 0x200D),
   (0x2070, 0x218F), (0x2C00, 0x2FEF), (0x3001, 0xD7FF), (0xF900, 0xFDCF), (0xFDF0, 0xFFFD),
   (0x10000, 0xEFFFF)]

def nameRests : Ranges := [(0xB7, 0xB7), (0x300, 0x36F), (0x203F, 0x2040)]

def isNameStart (c : Char) : Bool :=
  c.isAlpha || c = ':' || c = '_' || Ranges.has nameStarts c.toNat

def isNameChar (c : Char) : Bool :=
  isNameStart c || c.isDigit || c = '-' || c = '.' || Ranges.has nameRests c.toNat

def skipSpaces (s : Text) : Text := s.dropWhile isSpace

end SchemaDiagram.Xml
