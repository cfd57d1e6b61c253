import SchemaDiagram.File.Path
import SchemaDiagram.Text.Width

/-!
A tree of directories and files, with a working directory. Reading and writing go through the
components of a path one by one, so a missing directory is noticed even before two points.
-/

set_option autoImplicit false

namespace SchemaDiagram

inductive FileError where
  | notFound
  | isDirectory
  | notDirectory
  | invalidName
  deriving DecidableEq, Repr

inductive Node where
  | file (content : ByteArray)
  | directory (entries : List (Text × Node))

namespace Node

def child? : Node → Text → Option Node
  | file _, _ => none
  | directory entries, name => entries.lookup name

def get? : Node → List Text → Option Node
  | n, [] => some n
  | n, name :: rest => (n.child? name).bind fun c => get? c rest

def isDirectory : Node → Bool
  | file _ => false
  | directory _ => true

def setEntry (name : Text) (node : Node) : List (Text × Node) → List (Text × Node)
  | [] => [(name, node)]
  | (n, old) :: rest => if n = name then (n, node) :: rest else (n, old) :: setEntry name node rest

/-- The tree with a node put at a list of names; directories on the way that are missing are
made. Below a file nothing can be put. -/
def put : Node → List Text → Node → Node
  | _, [], node => node
  | file content, _ :: _, _ => file content
  | directory entries, name :: rest, node =>
    let old := (entries.lookup name).getD (directory [])
    directory (setEntry name (put old rest node) entries)

end Node

structure Volume where
  root : Node
  /-- The names that lead from the root to the working directory. -/
  here : List Text

namespace Volume

def startOf (v : Volume) (path : Text) : List Text :=
  if Path.isAbsolute path then [] else v.here

/-- The place that steps lead to. Everything gone through has to be a directory. -/
def walk (v : Volume) : List Text → List Text → Except FileError (List Text)
  | at_, [] => .ok at_
  | at_, step :: rest =>
    if step = ['.', '.'] then walk v at_.dropLast rest
    else match v.root.get? (at_ ++ [step]) with
      | none => .error .notFound
      | some node =>
        if rest.isEmpty || node.isDirectory then walk v (at_ ++ [step]) rest
        else .error .notDirectory

def directoryAt (v : Volume) (start steps : List Text) : Except FileError (List Text) := do
  let place ← v.walk start steps
  match v.root.get? place with
  | none => .error .notFound
  | some (.file _) => .error .notDirectory
  | some (.directory _) => .ok place

def isName (name : Text) : Bool := Text.width name ≤ 255 && !name.contains '\x00'

def isPath (path : Text) : Bool := Text.width path < 4096 && !path.contains '\x00'

def read (v : Volume) (path : Text) : Except FileError ByteArray := do
  if path.isEmpty then .error .notFound
  else if !isPath path then .error .invalidName
  else
    let place ← v.walk (v.startOf path) (Path.steps path)
    match v.root.get? place with
    | none => .error .notFound
    | some (.directory _) => .error .isDirectory
    | some (.file content) =>
      if Path.asksDirectory path then .error .notDirectory else .ok content

/-- Where a directory is to be made, or nothing where there is one already. A path that ends with
a point can only name a directory that is there. -/
def vacancy (v : Volume) (path : Text) : Except FileError (Option (List Text)) := do
  if path.isEmpty then .error .notFound
  else if !isPath path then .error .invalidName
  else
    let entries := Path.entries path
    let place ← v.directoryAt (v.startOf path) (entries.dropLast.filter (· ≠ ['.']))
    match entries.getLast? with
    | none => .ok none
    | some name =>
      if name = ['.'] || name = ['.', '.'] then .ok none
      else match v.root.get? (place ++ [name]) with
        | some (.directory _) => .ok none
        | some (.file _) => .error .notDirectory
        | none => if isName name then .ok (some (place ++ [name])) else .error .invalidName

def makeDirectory (v : Volume) (path : Text) : Except FileError Unit × Volume :=
  match v.vacancy path with
  | .error e => (.error e, v)
  | .ok none => (.ok (), v)
  | .ok (some place) => (.ok (), { v with root := v.root.put place (.directory []) })

/-- The place of a file to write, whose directory has to exist. -/
def target (v : Volume) (path : Text) : Except FileError (List Text) := do
  if path.isEmpty then .error .notFound
  else if !isPath path then .error .invalidName
  else
    let steps := Path.steps path
    let place ← v.directoryAt (v.startOf path) steps.dropLast
    match steps.getLast? with
    | none => .error .isDirectory
    | some name =>
      if name = ['.', '.'] then .error .isDirectory
      else match v.root.get? (place ++ [name]) with
        | some (.directory _) => .error .isDirectory
        | some (.file _) =>
          if Path.asksDirectory path then .error .notDirectory else .ok (place ++ [name])
        | none =>
          if Path.asksDirectory path then .error .isDirectory
          else if isName name then .ok (place ++ [name])
          else .error .invalidName

def write (v : Volume) (path : Text) (content : ByteArray) : Except FileError Unit × Volume :=
  match v.target path with
  | .error e => (.error e, v)
  | .ok place => (.ok (), { v with root := v.root.put place (.file content) })

end Volume

end SchemaDiagram
