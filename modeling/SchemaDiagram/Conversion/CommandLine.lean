import SchemaDiagram.Conversion.Arguments
import SchemaDiagram.Conversion.Convert

/-! The commands of the program, and what each of them does, prints and returns. -/

set_option autoImplicit false

namespace SchemaDiagram

inductive Command where
  | convert (options : Options)
  | parse (mode : Mode) (path : Text)
  | print (text : Text)
  deriving DecidableEq, Repr

structure Exit where
  code : Nat
  message : Text
  deriving DecidableEq, Repr

namespace Command

def versionText : Text := "pg2dbml 0.1.0".toList

def ofLines (lines : List String) : Text := Text.join ['\n'] (lines.map String.toList)

def helpText : Text := ofLines [
  "Convert PostgreSQL schemas to DBML",
  "",
  "Usage: pg2dbml <COMMAND>",
  "",
  "Commands:",
  "  convert  Convert a schema file into .dbml documents and a JSON dump",
  "  parse    Parse a schema file and print the JSON dump to stdout",
  "  help     Print this message or the help of the given subcommand(s)",
  "",
  "Options:",
  "  -h, --help     Print help",
  "  -V, --version  Print version"]

def convertHelpText : Text := ofLines [
  "Convert a schema file into .dbml documents and a JSON dump",
  "",
  "Usage: pg2dbml convert [OPTIONS] [SCHEMA]",
  "",
  "Arguments:",
  "  [SCHEMA]  Path to the schema .sql file (defaults to the project's Schema)",
  "",
  "Options:",
  "  -o, --output <OUTPUT>    Output directory (defaults to ./output)",
  "  -p, --project <PROJECT>  Path to a .dbmlproj project file",
  "      --name <NAME>        Base name for the .dbml files (defaults to the schema file name)",
  "      --strict             Fail on the first fragment that cannot be parsed",
  "      --no-json            Skip writing parsed_schema.json",
  "  -v, --verbose            Enable verbose output",
  "  -h, --help               Print help"]

def parseHelpText : Text := ofLines [
  "Parse a schema file and print the JSON dump to stdout",
  "",
  "Usage: pg2dbml parse [OPTIONS] <SCHEMA>",
  "",
  "Arguments:",
  "  <SCHEMA>  Path to the schema .sql file",
  "",
  "Options:",
  "      --strict  Fail on the first fragment that cannot be parsed",
  "  -h, --help    Print help"]

def helpRule : OptionRule := { long := "help", short := some 'h' }

def strictRule : OptionRule := { long := "strict" }

def convertRules : List OptionRule :=
  [{ long := "output", short := some 'o', takesValue := true },
   { long := "project", short := some 'p', takesValue := true },
   { long := "name", takesValue := true, allowsEmpty := true },
   strictRule, { long := "no-json" }, { long := "verbose", short := some 'v' }, helpRule]

def parseRules : List OptionRule := [strictRule, helpRule]

def programRules : List OptionRule :=
  [helpRule, { long := "version", short := some 'V' }]

def asksHelp (g : Given) : Bool := g.has "help"

def given (rules : List OptionRule) (arguments : List Text) : Except UsageError Given :=
  readArguments rules 1 asksHelp (.complete {}) arguments

def ofConvertArguments (arguments : List Text) : Except UsageError Command := do
  let g ← given convertRules arguments
  if asksHelp g then pure (print convertHelpText)
  else pure (convert {
    inputPath := g.operands.head?
    outputDirectory := g.value? "output"
    projectPath := g.value? "project"
    outputName := g.value? "name"
    mode := if g.has "strict" then some .strict else none
    writeJson := !g.has "no-json"
    verbose := g.has "verbose" })

def ofParseArguments (arguments : List Text) : Except UsageError Command := do
  let g ← given parseRules arguments
  if asksHelp g then pure (print parseHelpText)
  else match g.operands.head? with
    | some path => pure (parse (if g.has "strict" then .strict else .lenient) path)
    | none => .error .missingOperand

def ofHelpArguments : List Text → Except UsageError Command
  | [] => .ok (print helpText)
  | command :: rest =>
    if !rest.isEmpty then .error (.unexpected command)
    else if command = "convert".toList then .ok (print convertHelpText)
    else if command = "parse".toList then .ok (print parseHelpText)
    else if command = "help".toList then .ok (print helpText)
    else .error (.unexpected command)

/-- Options of the program itself stand before the command and end the reading. -/
def ofProgramOption (argument : Text) : Except UsageError Command := do
  let g ← readArguments programRules 0 (fun g => !g.options.isEmpty) (.complete {}) [argument]
  match g.options.head? with
  | some (option, _) => pure (print (if option = "version".toList then versionText else helpText))
  | none => .error .missingCommand

def ofArguments : List Text → Except UsageError Command
  | [] => .error .missingCommand
  | command :: arguments =>
    if command = "convert".toList then ofConvertArguments arguments
    else if command = "parse".toList then ofParseArguments arguments
    else if command = "help".toList then ofHelpArguments arguments
    else ofProgramOption command

variable {m : Type → Type} [Monad m] [FileSystem m]

def convertedLine (outcome : Outcome) : Text :=
  "Converted ".toList ++ number outcome.tableCount ++ " tables (".toList ++
    number outcome.relationshipCount ++ " relationships) to ".toList ++ outcome.documentPath

def execute : Command → ExceptT Failure m Unit
  | convert options => do
    let outcome ← SchemaDiagram.convert options
    ExceptT.lift (FileSystem.say (convertedLine outcome))
  | parse mode path => do
    let schema ← readSchema mode path
    ExceptT.lift (FileSystem.say schema.jsonText)
  | print text => ExceptT.lift (FileSystem.say text)

def run (arguments : List Text) : m Exit :=
  match ofArguments arguments with
  | .error e => pure ⟨2, "error: ".toList ++ e.message⟩
  | .ok command => do
    match ← (execute command).run with
    | .ok () => pure ⟨0, []⟩
    | .error failure => pure ⟨1, "Error: ".toList ++ failure.message⟩

end Command

end SchemaDiagram
