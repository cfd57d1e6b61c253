import SchemaDiagram.Text.Basic

/-!
The text that the bytes of a file stand for. Bytes that are UTF-8 are read as such, without a
byte order mark at the beginning. Other bytes are UTF-16 where a mark of that encoding begins
them, and Windows-1252 otherwise, in which every byte is a character.
-/

set_option autoImplicit false

namespace SchemaDiagram.Text

def byteOrderMark : Char := '\uFEFF'

/-- The characters for the bytes from 80 to 9F; the five without one keep their number. -/
def windows1252High : List Char :=
  ['€', '\u0081', '‚', 'ƒ', '„', '…', '†', '‡', 'ˆ', '‰', 'Š', '‹', 'Œ', '\u008D', 'Ž', '\u008F',
   '\u0090', '‘', '’', '“', '”', '•', '–', '—', '˜', '™', 'š', '›', 'œ', '\u009D', 'ž', 'Ÿ']

def ofWindows1252 (b : UInt8) : Char :=
  if 0x80 ≤ b && b < 0xA0 then windows1252High.getD (b.toNat - 0x80) ' ' else Char.ofNat b.toNat

/-- Pairs of bytes as numbers of sixteen bits; a byte left over makes the text unreadable. -/
def units? (bigEndian : Bool) : List UInt8 → Option (List Nat)
  | [] => some []
  | [_] => none
  | a :: b :: bytes =>
    let unit := if bigEndian then a.toNat * 256 + b.toNat else b.toNat * 256 + a.toNat
    (units? bigEndian bytes).map (unit :: ·)

def isLeading (unit : Nat) : Bool := 0xD800 ≤ unit && unit < 0xDC00

def isTrailing (unit : Nat) : Bool := 0xDC00 ≤ unit && unit < 0xE000

/-- Characters of UTF-16 units. Surrogates have to stand in pairs. -/
def ofUnits? : List Nat → Option Text
  | [] => some []
  | [u] => if isLeading u || isTrailing u then none else some [Char.ofNat u]
  | u :: v :: units =>
    if isLeading u then
      if isTrailing v then
        (ofUnits? units).map (Char.ofNat (0x10000 + (u - 0xD800) * 0x400 + (v - 0xDC00)) :: ·)
      else none
    else if isTrailing u then none
    else (ofUnits? (v :: units)).map (Char.ofNat u :: ·)

def dropMark : Text → Text
  | [] => []
  | c :: s => if c = byteOrderMark then s else c :: s

def ofUtf8? (bytes : ByteArray) : Option Text := (String.fromUTF8? bytes).map String.toList

def ofUtf16? (bigEndian : Bool) (bytes : List UInt8) : Option Text :=
  (units? bigEndian bytes).bind ofUnits?

/-- The text of bytes that need not be UTF-8. A mark tells their encoding, and goes with it. -/
def ofLegacyBytes? : List UInt8 → Option Text
  | 0xEF :: 0xBB :: 0xBF :: bytes => ofUtf8? bytes.toByteArray
  | 0xFF :: 0xFE :: bytes => ofUtf16? false bytes
  | 0xFE :: 0xFF :: bytes => ofUtf16? true bytes
  | bytes => some (bytes.map ofWindows1252)

def ofBytesBy? (legacy? : List UInt8 → Option Text) (bytes : ByteArray) : Option Text :=
  match ofUtf8? bytes with
  | some s => some (dropMark s)
  | none => legacy? bytes.data.toList

def toUtf8 (s : Text) : ByteArray := (String.ofList s).toUTF8

end SchemaDiagram.Text
