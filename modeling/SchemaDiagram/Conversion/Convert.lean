import SchemaDiagram.Conversion.Project
import SchemaDiagram.File.System
import SchemaDiagram.Json.Schema
import SchemaDiagram.Text.Encoding

set_option autoImplicit false

namespace SchemaDiagram

/-- What is given for a conversion. What is missing comes from the project, or is a default. -/
structure Options where
  inputPath : Option Text := none
  outputDirectory : Option Text := none
  projectPath : Option Text := none
  outputName : Option Text := none
  projectName : Option Text := none
  mode : Option Mode := none
  writeJson : Bool := false
  verbose : Bool := false
  deriving DecidableEq, Repr

structure Outcome where
  documentPath : Text
  fullDocumentPath : Text
  jsonPath : Option Text
  tableCount : Nat
  relationshipCount : Nat
  skippedCount : Nat
  deriving DecidableEq, Repr

inductive ReadError where
  | file (error : FileError)
  | undecodable
  deriving DecidableEq, Repr

def jsonName : Text := "parsed_schema.json"

variable {m : Type → Type} [Monad m] [FileSystem m]

/-- The text of a file, given what reads bytes that are not UTF-8. -/
def readTextBy (legacy? : List UInt8 → Option Text) (path : Text) : ExceptT ReadError m Text := do
  match ← (FileSystem.read path : m _) with
  | .error e => throw (.file e)
  | .ok bytes =>
    match Text.ofBytesBy? legacy? bytes with
    | some s => pure s
    | none => throw .undecodable

def readText (path : Text) : ExceptT ReadError m Text := readTextBy Text.ofLegacyBytes? path

def readSchema (mode : Mode) (path : Text) : ExceptT Failure m Schema := do
  match ← ((readText path).run : m _) with
  | .error .undecodable => throw (.schemaUndecodable path)
  | .error (.file _) => throw (.schemaUnread path)
  | .ok sql =>
    match Schema.parse mode sql with
    | .ok schema => pure schema
    | .error piece => throw (.refused piece)

def readProject (path : Text) : ExceptT Failure m Project := do
  match ← (FileSystem.read path : m _) with
  | .error _ => throw (.projectUnread path)
  | .ok bytes =>
    match Text.ofUtf8? bytes with
    | none => throw (.projectUnread path)
    | some s =>
      match Xml.parse? s with
      | none => throw (.projectMalformed path)
      | some root =>
        match Project.ofContent path root with
        | .ok project => pure project
        | .error fault => throw (.projectInvalid fault)

def say (options : Options) (line : Text) : ExceptT Failure m Unit :=
  if options.verbose then ExceptT.lift (FileSystem.say line) else pure ()

def writeText (path content : Text) : ExceptT Failure m Unit := do
  match ← (FileSystem.write path (Text.toUtf8 content) : m _) with
  | .ok _ => pure ()
  | .error _ => throw (.unwritten path)

def makeDirectory (path : Text) : ExceptT Failure m Unit := do
  match ← (FileSystem.makeDirectories path : m _) with
  | .ok _ => pure ()
  | .error _ => throw (.unwritten path)

def number (n : Nat) : Text := Nat.toDigits 10 n

def parsingLine (path : Text) (mode : Mode) : Text :=
  "Parsing schema: ".toList ++ path ++ " (".toList ++ mode.name ++ " mode)".toList

def skippedLine (s : Skipped) : Text :=
  "Skipped in ".toList ++ s.context ++ ": ".toList ++ s.reason.text ++ " (`".toList ++ s.fragment ++
    "`)".toList

def schemaLines (schema : Schema) : List Text :=
  ["Parsed ".toList ++ number schema.tables.length ++ " tables".toList,
   "Found ".toList ++ number schema.foreignKeyCount ++ " relationships".toList] ++
  schema.skipped.map skippedLine

/-- What a conversion works with, as the options and the project say. -/
structure Plan where
  inputPath : Text
  mode : Mode
  outputDirectory : Text
  outputName : Text
  settings : Dbml.Settings
  deriving DecidableEq, Repr

/-- An option counts before the project. The documents have the name of the schema file unless
they are given one. -/
def Plan.of? (options : Options) (project : Option Project) : Option Plan := do
  let inputPath ← options.inputPath <|> project.bind (·.schemaFile)
  let stem := (Path.fileStem? inputPath).getD "schema"
  let settings : Dbml.Settings := (project.map Project.settings).getD { projectName := stem }
  pure {
    inputPath
    mode := (options.mode <|> project.map (·.mode)).getD .lenient
    outputDirectory := (options.outputDirectory <|> project.bind (·.outputDirectory)).getD "output"
    outputName := (options.outputName <|> project.bind (·.outputName)).getD stem
    settings := { settings with projectName := options.projectName.getD settings.projectName } }

def Plan.documentPath (plan : Plan) : Text :=
  Path.join plan.outputDirectory (plan.outputName ++ ".dbml".toList)

def Plan.fullDocumentPath (plan : Plan) : Text :=
  Path.join plan.outputDirectory (plan.outputName ++ "_full.dbml".toList)

def Plan.jsonPath (plan : Plan) : Text := Path.join plan.outputDirectory jsonName

def writeDocuments (options : Options) (plan : Plan) (schema : Schema) :
    ExceptT Failure m Unit := do
  makeDirectory plan.outputDirectory
  writeText plan.documentPath (Dbml.document plan.settings schema)
  say options ("Wrote DBML: ".toList ++ plan.documentPath)
  writeText plan.fullDocumentPath (Dbml.fullDocument plan.settings schema)
  say options ("Wrote full DBML: ".toList ++ plan.fullDocumentPath)
  if options.writeJson then
    writeText plan.jsonPath schema.jsonText
    say options ("Wrote JSON schema: ".toList ++ plan.jsonPath)

def loadProject (options : Options) : ExceptT Failure m (Option Project) :=
  match options.projectPath with
  | none => pure none
  | some path => do
    say options ("Loading project: ".toList ++ path)
    some <$> readProject path

/-- Reads the schema and writes its documents. A schema without tables has none. -/
def convert (options : Options) : ExceptT Failure m Outcome := do
  let project ← loadProject options
  match Plan.of? options project with
  | none => throw .noSchemaGiven
  | some plan =>
    say options (parsingLine plan.inputPath plan.mode)
    let schema ← readSchema plan.mode plan.inputPath
    if schema.tables.isEmpty then throw (.noTables plan.inputPath)
    else
      (schemaLines schema).forM (say options)
      writeDocuments options plan schema
      pure {
        documentPath := plan.documentPath
        fullDocumentPath := plan.fullDocumentPath
        jsonPath := if options.writeJson then some plan.jsonPath else none
        tableCount := schema.tables.length
        relationshipCount := schema.foreignKeyCount
        skippedCount := schema.skipped.length }

end SchemaDiagram
