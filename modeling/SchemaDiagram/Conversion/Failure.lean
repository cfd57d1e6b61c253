import SchemaDiagram.Schema.Basic

set_option autoImplicit false

namespace SchemaDiagram

inductive ProjectFault where
  | wrongRoot (name : Text)
  | unknownMode (word : Text)
  | missingInclude (element : Text)
  deriving DecidableEq, Repr

inductive Failure where
  | schemaUnread (path : Text)
  | schemaUndecodable (path : Text)
  | projectUnread (path : Text)
  | projectMalformed (path : Text)
  | projectInvalid (fault : ProjectFault)
  | refused (piece : Skipped)
  | noTables (path : Text)
  | unwritten (path : Text)
  | noSchemaGiven
  deriving DecidableEq, Repr

def unknownModeMessage (word : Text) : Text := "Unknown parse mode: ".toList ++ word

def ProjectFault.message : ProjectFault → Text
  | wrongRoot name => "expected <Project> root element, found <".toList ++ name ++ ['>']
  | unknownMode word => unknownModeMessage word
  | missingInclude element =>
    ['<'] ++ element ++ "> is missing its Include attribute".toList

def Failure.message : Failure → Text
  | schemaUnread path => "Failed to read schema file: ".toList ++ path
  | schemaUndecodable path =>
    "Schema file is not valid UTF-8 or Windows-1252 text: ".toList ++ path
  | projectUnread path => "Failed to read project file: ".toList ++ path
  | projectMalformed path => "Failed to parse project file: ".toList ++ path
  | projectInvalid fault => "Invalid project file format: ".toList ++ fault.message
  | refused piece =>
    "Could not parse ".toList ++ piece.context ++ ": ".toList ++ piece.reason.text ++
      " (fragment: `".toList ++ piece.fragment ++ "`)".toList
  | noTables path => "No CREATE TABLE statements found in ".toList ++ path
  | unwritten path => "Failed to write output file: ".toList ++ path
  | noSchemaGiven =>
    "No schema file given: pass a SCHEMA path or set <Schema> in the project".toList

end SchemaDiagram
