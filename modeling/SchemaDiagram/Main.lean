import SchemaDiagram.Conversion.CommandLine

set_option autoImplicit false

namespace SchemaDiagram

def FileError.ofMachine : IO.Error → FileError
  | .noFileOrDirectory .. => .notFound
  | .inappropriateType .. => .isDirectory
  | _ => .invalidName

def attempt {α : Type} (action : IO α) : IO (Except FileError α) := do
  match ← action.toBaseIO with
  | .ok a => pure (.ok a)
  | .error e => pure (.error (.ofMachine e))

instance : FileSystem IO where
  read path := attempt (IO.FS.readBinFile (String.ofList path))
  -- of what is there already, only a directory is accepted once more
  makeDirectory path := do
    match ← (IO.FS.createDir (String.ofList path)).toBaseIO with
    | .ok _ => pure (.ok ())
    | .error (.alreadyExists ..) => attempt (IO.FS.createDirAll (String.ofList path))
    | .error e => pure (.error (.ofMachine e))
  write path content := attempt (IO.FS.writeBinFile (String.ofList path) content)
  say line := IO.println (String.ofList line)

end SchemaDiagram

def main (arguments : List String) : IO UInt32 := do
  let exit ← (SchemaDiagram.Command.run (arguments.map String.toList) : IO SchemaDiagram.Exit)
  if !exit.message.isEmpty then IO.eprintln (String.ofList exit.message)
  pure exit.code.toUInt32
