import SchemaDiagram.Text.Basic

/-!
Paths as text, with slashes between their components. An empty component, and a point anywhere
but at the beginning, count for nothing.
-/

set_option autoImplicit false

namespace SchemaDiagram.Path

def isAbsolute (p : Text) : Bool := p.head? = some '/'

/-- A path seen from a directory; an absolute one stays as it is. -/
def join (directory p : Text) : Text :=
  if isAbsolute p then p
  else if directory.isEmpty || directory.getLast? = some '/' then directory ++ p
  else directory ++ ['/'] ++ p

/-- What stands before the components: the root, the leading point, or nothing. -/
def base (p : Text) : Text :=
  match p with
  | '/' :: _ => ['/']
  | ['.'] => ['.']
  | '.' :: '/' :: _ => ['.']
  | _ => []

def isIdle (piece : Text) : Bool := piece.isEmpty || piece = ['.']

def dropIdle (pieces : List Text) : List Text := (pieces.reverse.dropWhile isIdle).reverse

def pieces (p : Text) : List Text :=
  dropIdle (Text.splitAt (· = '/') (p.drop (base p).length))

def parent? (p : Text) : Option Text :=
  match pieces p with
  | [] => if base p = ['.'] then some [] else none
  | q :: qs => some (base p ++ Text.join ['/'] (dropIdle (q :: qs).dropLast))

def fileName? (p : Text) : Option Text :=
  match (pieces p).getLast? with
  | none => none
  | some piece => if piece = ['.', '.'] then none else some piece

/-- A file name without its extension; a name that begins with its only point has none. -/
def stem (name : Text) : Text :=
  match (Text.splitAt (· = '.') name).reverse with
  | _ :: q :: qs =>
    let before := Text.join ['.'] (q :: qs).reverse
    if before.isEmpty then name else before
  | _ => name

def fileStem? (p : Text) : Option Text := (fileName? p).map stem

/-- The directories above a path, nearest first, as far as the path itself names them. The first
argument bounds their number. -/
def above : Nat → Text → List Text
  | 0, _ => []
  | n + 1, p =>
    match parent? p with
    | none => []
    | some q => if q.isEmpty then [] else q :: above n q

def ancestors (p : Text) : List Text := above p.length p

def entries (p : Text) : List Text :=
  (Text.splitAt (· = '/') p).filter fun piece => !piece.isEmpty

/-- The components to go through, from the root or the working directory on. -/
def steps (p : Text) : List Text := (entries p).filter (· ≠ ['.'])

def asksDirectory (p : Text) : Bool :=
  match (Text.splitAt (· = '/') p).getLast? with
  | none => false
  | some piece => isIdle piece

end SchemaDiagram.Path
