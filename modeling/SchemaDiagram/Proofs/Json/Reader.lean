import SchemaDiagram.Text.Basic

/-!
A reader of JSON documents (RFC 8259), made without regard to how they are written here: one pass
over the characters, with the arrays and objects that are still open on a stack. Spaces may stand
between any two tokens, every escape is understood, and an object must not repeat a key.
-/

set_option autoImplicit false

namespace SchemaDiagram.Json

/-- What a document says; a number stays as it is written. -/
inductive Value where
  | null
  | bool (value : Bool)
  | number (numeral : Text)
  | string (value : Text)
  | array (items : List Value)
  | object (members : List (Text × Value))
  deriving Repr

inductive Frame where
  | items (read : List Value)
  | member (read : List (Text × Value)) (key : Text)

inductive Token where
  | openArray
  | closeArray
  | openObject
  | closeObject
  | comma
  | colon
  | scalar (value : Value)

namespace Token

def ofMark? : Char → Option Token
  | '[' => some openArray
  | ']' => some closeArray
  | '\x7b' => some openObject
  | '\x7d' => some closeObject
  | ',' => some comma
  | ':' => some colon
  | _ => none

end Token

/-- What has to come next. -/
inductive Expected where
  | value (stack : List Frame)
  | key (read : List (Text × Value)) (stack : List Frame)
  | colon (read : List (Text × Value)) (key : Text) (stack : List Frame)
  | separator (value : Value) (stack : List Frame)

namespace Expected

def take? (expected : Expected) (token : Token) : Option Expected :=
  match token with
  | .scalar v =>
    match expected, v with
    | value stack, v => some (separator v stack)
    | key read stack, .string k =>
      if k ∈ read.map Prod.fst then none else some (colon read k stack)
    | _, _ => none
  | .openArray =>
    match expected with
    | value stack => some (value (.items [] :: stack))
    | _ => none
  | .closeArray =>
    match expected with
    | value (.items [] :: stack) => some (separator (.array []) stack)
    | separator v (.items read :: stack) => some (separator (.array (read ++ [v])) stack)
    | _ => none
  | .openObject =>
    match expected with
    | value stack => some (key [] stack)
    | _ => none
  | .closeObject =>
    match expected with
    | key [] stack => some (separator (.object []) stack)
    | separator v (.member read k :: stack) => some (separator (.object (read ++ [(k, v)])) stack)
    | _ => none
  | .comma =>
    match expected with
    | separator v (.items read :: stack) => some (value (.items (read ++ [v]) :: stack))
    | separator v (.member read k :: stack) => some (key (read ++ [(k, v)]) stack)
    | _ => none
  | .colon =>
    match expected with
    | colon read k stack => some (value (.member read k :: stack))
    | _ => none

end Expected

def escaped? : Char → Option Char
  | '"' => some '"'
  | '\\' => some '\\'
  | '/' => some '/'
  | 'b' => some '\x08'
  | 'f' => some '\x0c'
  | 'n' => some '\n'
  | 'r' => some '\r'
  | 't' => some '\t'
  | _ => none

def hexValue? (c : Char) : Option Nat :=
  if '0' ≤ c ∧ c ≤ '9' then some (c.toNat - 48)
  else if 'a' ≤ c ∧ c ≤ 'f' then some (c.toNat - 87)
  else if 'A' ≤ c ∧ c ≤ 'F' then some (c.toNat - 55)
  else none

/-- What was read of a string. A code may be the first half of a character. -/
structure Content where
  text : Text := []
  half? : Option Nat := none

namespace Content

def add? (s : Content) (c : Char) : Option Content :=
  if s.half?.isSome then none else some ⟨s.text ++ [c], none⟩

def addCode? (s : Content) (n : Nat) : Option Content :=
  match s.half? with
  | some high =>
    if 0xDC00 ≤ n ∧ n < 0xE000 then
      some ⟨s.text ++ [Char.ofNat (0x10000 + (high - 0xD800) * 0x400 + (n - 0xDC00))], none⟩
    else none
  | none =>
    if 0xD800 ≤ n ∧ n < 0xDC00 then some ⟨s.text, some n⟩
    else if 0xDC00 ≤ n ∧ n < 0xE000 then none
    else some ⟨s.text ++ [Char.ofNat n], none⟩

def close? (s : Content) : Option Value := if s.half?.isSome then none else some (.string s.text)

end Content

def isNumeralPart (c : Char) : Bool := c.isDigit || "+-.eE".toList.contains c

def digits? (s : Text) : Option Text :=
  if (s.takeWhile Char.isDigit).isEmpty then none else some (s.dropWhile Char.isDigit)

def integer? : Text → Option Text
  | '-' :: '0' :: rest => some rest
  | '-' :: rest => digits? rest
  | '0' :: rest => some rest
  | s => digits? s

def fraction? : Text → Option Text
  | '.' :: rest => digits? rest
  | s => some s

def exponent? : Text → Option Text
  | [] => some []
  | c :: rest =>
    if c = 'e' ∨ c = 'E' then
      match rest with
      | '+' :: rest => digits? rest
      | '-' :: rest => digits? rest
      | rest => digits? rest
    else some (c :: rest)

def isNumeral (s : Text) : Bool := ((integer? s).bind fraction?).bind exponent? = some []

inductive Place where
  | between
  | inString (content : Content)
  | inEscape (content : Content)
  /-- In the digits of a code, with the number of those to come after the next one. -/
  | inCode (content : Content) (left code : Nat)
  | inNumeral (read : Text)
  | inWord (rest : Text) (value : Value)

structure Reader where
  expected : Expected
  place : Place

def isSpace (c : Char) : Bool := " \t\n\r".toList.contains c

def word? : Char → Option (Text × Value)
  | 'n' => some ("ull".toList, .null)
  | 't' => some ("rue".toList, .bool true)
  | 'f' => some ("alse".toList, .bool false)
  | _ => none

namespace Reader

def take? (expected : Expected) (token : Token) : Option Reader :=
  (expected.take? token).map fun expected => ⟨expected, .between⟩

def begin? (expected : Expected) (c : Char) : Option Reader :=
  if isSpace c then some ⟨expected, .between⟩
  else if c = '"' then some ⟨expected, .inString {}⟩
  else if isNumeralPart c then some ⟨expected, .inNumeral [c]⟩
  else
    match Token.ofMark? c, word? c with
    | some token, _ => take? expected token
    | none, some (rest, value) => some ⟨expected, .inWord rest value⟩
    | none, none => none

def endNumeral? (expected : Expected) (numeral : Text) : Option Expected :=
  if isNumeral numeral then expected.take? (.scalar (.number numeral)) else none

def step? (reader : Reader) (c : Char) : Option Reader :=
  match reader.place with
  | .between => begin? reader.expected c
  | .inString content =>
    if c = '"' then content.close?.bind fun s => take? reader.expected (.scalar s)
    else if c = '\\' then some ⟨reader.expected, .inEscape content⟩
    else if c.toNat < 32 then none
    else (content.add? c).map fun content => ⟨reader.expected, .inString content⟩
  | .inEscape content =>
    if c = 'u' then some ⟨reader.expected, .inCode content 3 0⟩
    else do
      let content ← content.add? (← escaped? c)
      some ⟨reader.expected, .inString content⟩
  | .inCode content left code => do
    let code := 16 * code + (← hexValue? c)
    match left with
    | 0 => (content.addCode? code).map fun content => ⟨reader.expected, .inString content⟩
    | left + 1 => some ⟨reader.expected, .inCode content left code⟩
  | .inNumeral read =>
    if isNumeralPart c then some ⟨reader.expected, .inNumeral (read ++ [c])⟩
    else (endNumeral? reader.expected read).bind (begin? · c)
  | .inWord rest value =>
    if rest = [c] then take? reader.expected (.scalar value)
    else if rest.head? = some c then some ⟨reader.expected, .inWord rest.tail value⟩
    else none

def run? (reader : Reader) (s : Text) : Option Reader := s.foldlM step? reader

def close? (reader : Reader) : Option Value :=
  let expected? :=
    match reader.place with
    | .between => some reader.expected
    | .inNumeral read => endNumeral? reader.expected read
    | _ => none
  match expected? with
  | some (.separator value []) => some value
  | _ => none

end Reader

/-- The value that a whole text says, if it is a document. -/
def read? (s : Text) : Option Value :=
  (Reader.run? ⟨.value [], .between⟩ s).bind Reader.close?

example : ["[1.5e3, \x7b\x7d ]", "\"\\ud83d\\ude00\"", "\"\\ude00\"", "[01]", "[1,]",
    "\x7b\"a\":1,\"a\":2\x7d", "nul", "[] []"].map (fun s : String => (read? s).isSome) =
    [true, true, false, false, false, false, false, false] := by
  decide +kernel

end SchemaDiagram.Json
