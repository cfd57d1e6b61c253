import SchemaDiagram.Sql.Header
import SchemaDiagram.Sql.Nesting

/-!
The statements of a text, found from left to right. A header may begin at any word boundary that
no earlier statement owns. It owns the text up to the parenthesis that closes its list; where the
list does not close, or may not end there, the header owns only itself.
-/

set_option autoImplicit false

namespace SchemaDiagram.Sql

/-- What a header led to: a statement, or the text of a header whose list does not end. -/
inductive Occurrence (α : Type) where
  | complete (content : α)
  | unterminated (header : Text)
  deriving DecidableEq, Repr

/-- A kind of statement: how its header is read, what may follow its list, and what a header and
the inside of its list amount to. -/
structure StatementKind (η α : Type) where
  header? : Text → Option (η × Text)
  ends : Text → Bool
  content : η → Text → α
  header?_length : ∀ {s h r}, header? s = some (h, r) → r.length < s.length

namespace StatementKind
variable {η α : Type}

def headerAfter? (kind : StatementKind η α) (before : Option Char) (s : Text) :
    Option (η × Text) :=
  if beginsWord before then kind.header? s else none

theorem headerAfter?_length (kind : StatementKind η α) {before : Option Char} {s r : Text} {h : η}
    (hr : kind.headerAfter? before s = some (h, r)) : r.length < s.length := by
  unfold headerAfter? at hr
  split at hr
  · exact kind.header?_length hr
  · simp at hr

/-- The list after a header, and what follows it, if the statement may end there. -/
def list? (kind : StatementKind η α) (s : Text) : Option (Text × Text) :=
  (group? s).filter fun g => kind.ends g.2

theorem list?_length (kind : StatementKind η α) {s inside r : Text}
    (h : kind.list? s = some (inside, r)) : r.length < s.length :=
  length_of_group? (Option.filter_eq_some_iff.1 h).1

def occurrencesAfter (kind : StatementKind η α) : Option Char → Text → List (Occurrence α)
  | _, [] => []
  | before, c :: s =>
    match _hr : kind.headerAfter? before (c :: s) with
    | none => occurrencesAfter kind (some c) s
    | some (header, afterOpen) =>
      match _hl : kind.list? afterOpen with
      | some (inside, rest) =>
        .complete (kind.content header inside) :: occurrencesAfter kind (some ')') rest
      | none =>
        .unterminated ((c :: s).take ((c :: s).length - afterOpen.length)) ::
          occurrencesAfter kind (some '(') afterOpen
termination_by _ s => s.length
decreasing_by
  · simp
  · have h1 := kind.headerAfter?_length _hr
    have h2 := kind.list?_length _hl
    omega
  · exact kind.headerAfter?_length _hr

def occurrences (kind : StatementKind η α) (s : Text) : List (Occurrence α) :=
  kind.occurrencesAfter none s

end StatementKind

/-- A table as declared: its name, and the inside of its parentheses. -/
structure TableStatement where
  name : Text
  body : Text
  deriving DecidableEq, Repr

structure IndexStatement where
  name : Option Text
  table : Text
  columns : Text
  deriving DecidableEq, Repr

def endsStatement (rest : Text) : Bool :=
  match Text.trimStart rest with
  | [] => true
  | c :: _ => c = ';'

def tableStatements : StatementKind Text TableStatement where
  header? := tableHeader?
  ends := endsStatement
  content name inside := ⟨normalizeName name, Text.trim inside⟩
  header?_length := tableHeader?_length

def indexStatements : StatementKind IndexHeader IndexStatement where
  header? := indexHeader?
  ends _ := true
  content header inside :=
    ⟨header.name.map normalizeName, normalizeName header.table, Text.collapse inside⟩
  header?_length := indexHeader?_length

def tableOccurrences (sql : Text) : List (Occurrence TableStatement) :=
  tableStatements.occurrences sql

def indexOccurrences (sql : Text) : List (Occurrence IndexStatement) :=
  indexStatements.occurrences sql

end SchemaDiagram.Sql
