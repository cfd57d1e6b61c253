import SchemaDiagram.Json.Basic
import SchemaDiagram.Schema.Basic

set_option autoImplicit false

namespace SchemaDiagram

def Column.toJson (c : Column) : Json := .object [
  ("name".toList, .string c.name),
  ("data_type".toList, .string c.dataType),
  ("is_primary_key".toList, .bool c.isPrimaryKey),
  ("is_foreign_key".toList, .bool c.isForeignKey),
  ("is_not_null".toList, .bool c.isNotNull),
  ("default_value".toList, .optional c.default?),
  ("constraints".toList, .strings c.constraints),
  ("references_table".toList, .optional (c.reference?.map Reference.table)),
  ("references_column".toList, .optional (c.reference?.map Reference.column))]

def ForeignKey.toJson (k : ForeignKey) : Json := .object [
  ("column".toList, .string k.column),
  ("references_table".toList, .string k.target.table),
  ("references_column".toList, .string k.target.column),
  ("constraint_name".toList, .string k.constraintName)]

def Table.toJson (t : Table) : Json := .object [
  ("name".toList, .string t.name),
  ("columns".toList, .array (t.columns.map Column.toJson)),
  ("primary_keys".toList, .strings t.primaryKeys),
  ("foreign_keys".toList, .array (t.foreignKeys.map ForeignKey.toJson)),
  ("indexes".toList, .strings t.indexes),
  ("constraints".toList, .strings t.constraints)]

def Relationship.toJson (r : Relationship) : Json := .object [
  ("from_table".toList, .string r.fromTable),
  ("from_column".toList, .string r.fromColumn),
  ("to_table".toList, .string r.target.table),
  ("to_column".toList, .string r.target.column),
  ("constraint_name".toList, .string r.constraintName)]

def Schema.toJson (m : Schema) : Json := .object [
  ("tables".toList, .object (m.tables.map fun t => (t.name, t.toJson))),
  ("relationships".toList, .array (m.relationships.map Relationship.toJson))]

def Schema.jsonText (m : Schema) : Text := m.toJson.render

end SchemaDiagram
