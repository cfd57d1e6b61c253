import SchemaDiagram.Sql.Location
import SchemaDiagram.Sql.Token

/-!
Removal of comments. Where the text can be read as tokens, the places of the comment tokens give
ranges of bytes, and `stripComments` removes these and nothing else; a line comment leaves the
line break that ends it. Where it cannot, `stripMarked` removes whatever is marked as a comment,
without regard to literals.
-/

set_option autoImplicit false

namespace SchemaDiagram.Sql

inductive Lexeme where
  /-- A line comment by what follows its two hyphens, the line break at its end included. -/
  | lineComment (comment : Text)
  | blockComment (body : Text)
  | other (source : Text)
  deriving DecidableEq, Repr

namespace Lexeme

def text : Lexeme → Text
  | lineComment comment => "--".toList ++ comment
  | blockComment body => "/*".toList ++ body ++ "*/".toList
  | other source => source

/-- What is removed as a comment; the line breaks at its end are not. -/
def comment? : Lexeme → Option Text
  | lineComment comment =>
    some ("--".toList ++ (comment.reverse.dropWhile Token.isLineBreak).reverse)
  | blockComment body => some ("/*".toList ++ body ++ "*/".toList)
  | other _ => none

end Lexeme

def Token.lexeme (t : Token) : Lexeme :=
  match t.kind with
  | .lineComment => .lineComment (t.text.drop 2)
  | .blockComment => .blockComment ((t.text.drop 2).take (t.text.length - 4))
  | _ => .other t.text

structure Located where
  lexeme : Lexeme
  start : Location
  deriving DecidableEq, Repr

def locate : Location → List Token → List Located
  | _, [] => []
  | l, t :: ts => ⟨t.lexeme, l⟩ :: locate (l.after t.text) ts

def locatedTokens? (sql : Text) : Option (List Located) :=
  (Token.lex? sql).map (locate .start)

structure ByteRange where
  start : Nat
  stop : Nat
  deriving DecidableEq, Repr

/-- The range of each comment, provided that the comment stands where it is said to begin. -/
def commentRanges? (lines : Array Line) : List Located → Option (List ByteRange)
  | [] => some []
  | t :: rest =>
    match t.lexeme.comment? with
    | none => commentRanges? lines rest
    | some comment => do
      let (start, text) ← t.start.find? lines
      if comment.isPrefixOf text then
        let ranges ← commentRanges? lines rest
        pure (⟨start, start + Text.width comment⟩ :: ranges)
      else none

/-- What is left of a text, itself at the given offset, without ranges that ascend and begin and
end between characters. -/
def removeRanges? : Nat → List ByteRange → Text → Option Text
  | _, [], s => some s
  | offset, r :: ranges, s => do
    let (kept, rest) ← if r.start < offset then none else Text.splitBytes? (r.start - offset) s
    let rest ← removeRanges? r.stop ranges (← Text.dropBytes? (r.stop - r.start) rest)
    pure (kept ++ rest)

/-- Removes every text from two hyphens to the end of its line. The flag tells whether such a
text is being passed. -/
def stripLines : Bool → Text → Text
  | _, [] => []
  | true, c :: s => if c = '\n' then c :: stripLines false s else stripLines true s
  | false, '-' :: '-' :: s => stripLines true s
  | false, c :: s => c :: stripLines false s

def afterBlock? : Text → Option Text
  | [] => none
  | '*' :: '/' :: s => some s
  | _ :: s => afterBlock? s

theorem length_afterBlock?_le {s r : Text} (h : afterBlock? s = some r) : r.length ≤ s.length := by
  fun_induction afterBlock? s with
  | case1 => simp at h
  | case2 s => simp at h; subst h; simp; omega
  | case3 c s _ ih => have := ih h; simp; omega

def stripBlocks : Text → Text
  | [] => []
  | '/' :: '*' :: s =>
    match _h : afterBlock? s with
    | some r => stripBlocks r
    | none => '/' :: '*' :: s
  | c :: s => c :: stripBlocks s
termination_by s => s.length
decreasing_by
  · have := length_afterBlock?_le _h; simp; omega
  · simp

/-- Removes marked comments from text that cannot be read as tokens, line comments first. -/
def stripMarked (sql : Text) : Text := stripBlocks (stripLines false sql)

def hasPair (a b : Char) : Text → Bool
  | c :: d :: s => (c = a && d = b) || hasPair a b (d :: s)
  | _ => false

def stripCommentsBy (tokenize? : Text → Option (List Located)) (sql : Text) : Text :=
  if hasPair '-' '-' sql || hasPair '/' '*' sql then
    let stripped := do
      removeRanges? 0 (← commentRanges? (lines sql) (← tokenize? sql)) sql
    stripped.getD (stripMarked sql)
  else sql

def stripComments (sql : Text) : Text := stripCommentsBy locatedTokens? sql

end SchemaDiagram.Sql
