import SchemaDiagram.File.Volume

set_option autoImplicit false

namespace SchemaDiagram

class FileSystem (m : Type → Type) where
  read : Text → m (Except FileError ByteArray)
  /-- Makes one directory in a directory that is there; where there is one already, it stays. -/
  makeDirectory : Text → m (Except FileError Unit)
  write : Text → ByteArray → m (Except FileError Unit)
  say : Text → m Unit

namespace FileSystem
variable {m : Type → Type} [Monad m] [FileSystem m]

/-- Makes a directory. Where the one above it is missing, that one is made first; the list holds
the directories above, nearest first. -/
def makeBelow : List Text → Text → m (Except FileError Unit)
  | [], path => makeDirectory path
  | parent :: above, path => do
    match ← (makeDirectory path : m _) with
    | .error .notFound =>
      match ← (makeBelow above parent : m _) with
      | .ok _ => makeDirectory path
      | .error e => pure (.error e)
    | result => pure result

/-- Makes a directory and whatever is missing above it. Directories made stay where a later step
fails. -/
def makeDirectories (path : Text) : m (Except FileError Unit) :=
  if path.isEmpty then pure (.ok ()) else makeBelow (Path.ancestors path) path

end FileSystem

structure Session where
  volume : Volume
  output : List Text := []

instance : FileSystem (StateM Session) where
  read path := fun s => (s.volume.read path, s)
  makeDirectory path := fun s =>
    let (result, volume) := s.volume.makeDirectory path
    (result, { s with volume })
  write path content := fun s =>
    let (result, volume) := s.volume.write path content
    (result, { s with volume })
  say line := fun s => ((), { s with output := s.output ++ [line] })

end SchemaDiagram
