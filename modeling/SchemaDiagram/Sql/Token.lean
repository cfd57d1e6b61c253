import SchemaDiagram.Text.Digit

/-!
The tokens of PostgreSQL text, as far as they decide what is a comment. A token keeps its source
text, and each reader below only says how many characters a token takes; so the texts of the
tokens are the input again (`flatMap_text_of_lex?`). Reading fails at a literal or a comment that
does not end, and at an escape that names no character.
-/

set_option autoImplicit false

namespace SchemaDiagram.Sql
open Unicode Text

inductive TokenKind where
  | blank
  | lineComment
  | blockComment
  | word
  | number
  | literal
  | symbol
  deriving DecidableEq, Repr

structure Token where
  kind : TokenKind
  text : Text
  deriving DecidableEq, Repr

namespace Token

/-- Through the closing quote. A doubled quote stays inside; where backslashes escape, the
character after one stays inside as well. -/
def quotedExtent? (escapes : Bool) (quote : Char) : Text → Option Nat
  | [] => none
  | [c] => if c = quote then some 1 else none
  | c :: d :: s =>
    if c = quote then
      if d = quote then (quotedExtent? escapes quote s).map (· + 2) else some 1
    else if escapes && c = '\\' then (quotedExtent? escapes quote s).map (· + 2)
    else (quotedExtent? escapes quote (d :: s)).map (· + 1)

/-- The digits of `\u` and `\U`: exactly so many characters, with one plus sign allowed before
the hexadecimal digits, naming a character other than NUL. -/
def namesCharacter (size : Nat) (s : Text) : Bool :=
  let field := s.take size
  let digits := if field.head? = some '+' then field.drop 1 else field
  field.length = size && !digits.isEmpty && digits.all isHexDigit &&
    isScalar (digitsValue 16 digits) && digitsValue 16 digits ≠ 0

/-- Whether digits name an ASCII character other than NUL, in their low eight bits. -/
def namesAscii (base : Nat) (digits : Text) : Bool :=
  0 < digitsValue base digits % 256 && digitsValue base digits % 256 < 128

def escapeExtent? : Text → Option Nat
  | [] => none
  | c :: s =>
    if c = 'u' then if namesCharacter 4 s then some 5 else none
    else if c = 'U' then if namesCharacter 8 s then some 9 else none
    else if c = 'x' then
      let digits := (s.take 2).takeWhile isHexDigit
      if digits.isEmpty then some 1
      else if namesAscii 16 digits then some (digits.length + 1) else none
    else if isOctalDigit c then
      let digits := c :: (s.take 2).takeWhile isOctalDigit
      if namesAscii 8 digits then some digits.length else none
    else if c = '\x00' then none
    else some 1

def escapeLiteralExtent? : Text → Option Nat
  | [] => none
  | '\'' :: '\'' :: s => (escapeLiteralExtent? s).map (· + 2)
  | '\'' :: _ => some 1
  | '\\' :: s => do
    let n ← escapeExtent? s
    let rest ← escapeLiteralExtent? (s.drop n)
    pure (n + 1 + rest)
  | _ :: s => (escapeLiteralExtent? s).map (· + 1)
termination_by s => s.length

def unicodeEscapeExtent? : Text → Option Nat
  | [] => none
  | c :: s =>
    if c = '\\' then some 1
    else
      let size := if c = '+' then 6 else 4
      let digits := (if c = '+' then s else c :: s).take size
      if digits.length = size ∧ digits.all isHexDigit ∧ isScalar (digitsValue 16 digits) then
        some (if c = '+' then 7 else 4)
      else none

def unicodeLiteralExtent? : Text → Option Nat
  | [] => none
  | '\'' :: '\'' :: s => (unicodeLiteralExtent? s).map (· + 2)
  | '\'' :: _ => some 1
  | '\\' :: s => do
    let n ← unicodeEscapeExtent? s
    let rest ← unicodeLiteralExtent? (s.drop n)
    pure (n + 1 + rest)
  | _ :: s => (unicodeLiteralExtent? s).map (· + 1)
termination_by s => s.length

def blockExtent? : Nat → Text → Option Nat
  | _, [] => none
  | depth, '/' :: '*' :: s => (blockExtent? (depth + 1) s).map (· + 2)
  | 0, '*' :: '/' :: _ => some 2
  | depth + 1, '*' :: '/' :: s => (blockExtent? depth s).map (· + 2)
  | depth, _ :: s => (blockExtent? depth s).map (· + 1)

def extentThrough? (mark : Text) : Text → Option Nat
  | [] => if mark.isEmpty then some 0 else none
  | c :: s =>
    if mark.isPrefixOf (c :: s) then some mark.length
    else (extentThrough? mark s).map (· + 1)

def isTagChar (c : Char) : Bool := isAlphanumeric c || c = '_'

/-- After a dollar sign: a body between dollar quotes, or the name of a parameter. -/
def dollarExtent? (s : Text) : Option (TokenKind × Nat) :=
  let tag := s.takeWhile isTagChar
  if (s.drop tag.length).head? = some '$' then do
    let n ← extentThrough? ('$' :: (tag ++ ['$'])) (s.drop (tag.length + 1))
    pure (.literal, tag.length + 1 + n)
  else some (.word, tag.length)

def digitRun (s : Text) : Nat := (s.takeWhile Char.isDigit).length

def exponentExtent (s : Text) : Nat :=
  match s with
  | e :: s =>
    if e = 'e' || e = 'E' then
      match s with
      | sign :: ds =>
        if sign = '+' || sign = '-' then if digitRun ds = 0 then 0 else digitRun ds + 2
        else if digitRun s = 0 then 0 else digitRun s + 1
      | [] => 0
    else 0
  | [] => 0

def longSuffix (s : Text) : Nat := if s.head? = some 'L' then 1 else 0

def numberExtent (c : Char) (s : Text) : TokenKind × Nat :=
  let whole := if c = '.' then 0 else digitRun s
  if c = '0' && whole = 0 && s.head? = some 'x' then
    (.number, ((s.drop 1).takeWhile isHexDigit).length + 1)
  else
    let point := if c ≠ '.' && (s.drop whole).head? = some '.' then whole + 1 else whole
    let fraction := point + (if c = '.' || whole < point then digitRun (s.drop point) else 0)
    if c = '.' && fraction = 0 then (.symbol, 0)
    else
      let exponent := fraction + exponentExtent (s.drop fraction)
      (.number, exponent + longSuffix (s.drop exponent))

def isOperatorChar (c : Char) : Bool :=
  ("+-*/<>=~!@#%^&|`?".toList).contains c

def operatorRun (s : Text) : Nat := (s.takeWhile isOperatorChar).length

def oneOf (allowed : Text) (s : Text) : Nat :=
  match s with
  | [] => 0
  | c :: _ => if allowed.contains c then 1 else 0

def negationExtent : Text → Nat
  | '~' :: '~' :: '*' :: _ => 3
  | '~' :: '~' :: _ => 2
  | '~' :: '*' :: _ => 2
  | s => oneOf ['=', '!', '~'] s

def symbolExtent (c : Char) (s : Text) : Nat :=
  if c = '^' then oneOf ['@'] s
  else if ("-%|<>&~#".toList).contains c then operatorRun s
  else if c = '=' then oneOf ['>', '='] s
  else if c = '!' then negationExtent s
  else if c = ':' then oneOf [':', '='] s
  else if c = '@' then oneOf ['>', '?', '@'] s
  else if c = '?' then min 1 s.length
  else 0

def isWordStart (c : Char) : Bool := isAlphabetic c || c = '_'

def isWordPart (c : Char) : Bool := isAlphabetic c || c.isDigit || c = '$' || c = '_'

def wordExtent (s : Text) : TokenKind × Nat := (.word, (s.takeWhile isWordPart).length)

def isLineBreak (c : Char) : Bool := c = '\n' || c = '\r'

/-- A line comment takes the character that ends its line. -/
def lineCommentExtent (s : Text) : Nat :=
  min s.length ((s.takeWhile (fun c => !isLineBreak c)).length + 1)

def literal? (lead : Nat) (extent : Option Nat) : Option (TokenKind × Nat) :=
  extent.map fun n => (.literal, lead + n)

/-- A letter that may introduce a literal does so only directly before the quote. -/
def prefixedExtent? (c : Char) (s : Text) : Option (TokenKind × Nat) :=
  match c.toLower, s with
  | 'b', '\'' :: s => literal? 1 (quotedExtent? false '\'' s)
  | 'b', '"' :: s => literal? 1 (quotedExtent? false '"' s)
  | 'n', '\'' :: s => literal? 1 (quotedExtent? true '\'' s)
  | 'e', '\'' :: s => literal? 1 (escapeLiteralExtent? s)
  | 'u', '&' :: '\'' :: s => literal? 2 (unicodeLiteralExtent? s)
  | 'x', '\'' :: s => literal? 1 (quotedExtent? true '\'' s)
  | _, s => some (wordExtent s)

/-- The kind of the token that begins with `c`, and how many of the following characters
belong to it. -/
def extent? (c : Char) (s : Text) : Option (TokenKind × Nat) :=
  if c = '\'' then literal? 0 (quotedExtent? false '\'' s)
  else if c = '"' then literal? 0 (quotedExtent? false '"' s)
  else if c = '$' then dollarExtent? s
  else if c.isDigit || c = '.' then some (numberExtent c s)
  else if c = '-' && s.head? = some '-' then some (.lineComment, lineCommentExtent (s.drop 1) + 1)
  else if c = '/' && s.head? = some '*' then
    (blockExtent? 0 (s.drop 1)).map fun n => (.blockComment, n + 1)
  else if isWordStart c then prefixedExtent? c s
  else if c = '\r' then some (.blank, oneOf ['\n'] s)
  else if isBlank c then some (.blank, 0)
  else some (.symbol, symbolExtent c s)

def lex? : Text → Option (List Token)
  | [] => some []
  | c :: s => do
    let (kind, n) ← extent? c s
    let rest ← lex? (s.drop n)
    pure (⟨kind, c :: s.take n⟩ :: rest)
termination_by s => s.length

theorem flatMap_text_of_lex? {s : Text} {ts : List Token} (h : lex? s = some ts) :
    ts.flatMap text = s := by
  fun_induction lex? s generalizing ts with
  | case1 => simp at h; subst h; rfl
  | case2 c s ih =>
    simp only [Option.bind_eq_bind, Option.bind_eq_some_iff, Option.pure_def,
      Option.some.injEq] at h
    obtain ⟨⟨kind, n⟩, _, rest, hrest, rfl⟩ := h
    simp [ih n hrest]

end Token

end SchemaDiagram.Sql
