import Mathlib.Data.List.Basic
import SchemaDiagram.Json.Schema
import SchemaDiagram.Proofs.Json.RoundTrip
import SchemaDiagram.Proofs.KeyMarks

set_option autoImplicit false

namespace SchemaDiagram
open Json

namespace Json.Value

def field? {α : Type} (v : Value) (key : Text) (read? : Value → Option α) : Option α :=
  match v with
  | object members => (members.lookup key).bind read?
  | _ => none

def text? : Value → Option Text
  | string s => some s
  | _ => none

def bool? : Value → Option Bool
  | bool b => some b
  | _ => none

def optional? : Value → Option (Option Text)
  | null => some none
  | string s => some (some s)
  | _ => none

def list? {α : Type} (read? : Value → Option α) : Value → Option (List α)
  | array items => items.mapM read?
  | _ => none

def texts? : Value → Option (List Text) := list? text?

end Json.Value

def Reference.ofParts? : Option Text → Option Text → Option (Option Reference)
  | some table, some column => some (some ⟨table, column⟩)
  | none, none => some none
  | _, _ => none

def Column.ofValue? (v : Value) : Option Column := do
  let column : Column := {
    name := ← v.field? "name" Value.text?
    dataType := ← v.field? "data_type" Value.text?
    isPrimaryKey := ← v.field? "is_primary_key" Value.bool?
    isNotNull := ← v.field? "is_not_null" Value.bool?
    default? := ← v.field? "default_value" Value.optional?
    constraints := ← v.field? "constraints" Value.texts?
    reference? := ← Reference.ofParts? (← v.field? "references_table" Value.optional?)
      (← v.field? "references_column" Value.optional?) }
  if column.isForeignKey = (← v.field? "is_foreign_key" Value.bool?) then some column else none

def ForeignKey.ofValue? (v : Value) : Option ForeignKey := do
  some {
    column := ← v.field? "column" Value.text?
    target := ⟨← v.field? "references_table" Value.text?, ← v.field? "references_column" Value.text?⟩
    constraintName := ← v.field? "constraint_name" Value.text? }

def Table.ofValue? (v : Value) : Option Table := do
  some {
    name := ← v.field? "name" Value.text?
    columns := ← v.field? "columns" (Value.list? Column.ofValue?)
    primaryKeys := ← v.field? "primary_keys" Value.texts?
    foreignKeys := ← v.field? "foreign_keys" (Value.list? ForeignKey.ofValue?)
    indexes := ← v.field? "indexes" Value.texts?
    constraints := ← v.field? "constraints" Value.texts? }

def Relationship.ofValue? (v : Value) : Option Relationship := do
  some {
    fromTable := ← v.field? "from_table" Value.text?
    fromColumn := ← v.field? "from_column" Value.text?
    target := ⟨← v.field? "to_table" Value.text?, ← v.field? "to_column" Value.text?⟩
    constraintName := ← v.field? "constraint_name" Value.text? }

/-- The tables in the order of the document, each under its name. -/
def Schema.tablesOfValue? : Value → Option (List Table)
  | .object members => members.mapM fun m => (Table.ofValue? m.2).filter (·.name = m.1)
  | _ => none

def Schema.ofValue? (v : Value) : Option (List Table × List Relationship) := do
  some (← v.field? "tables" tablesOfValue?,
    ← v.field? "relationships" (Value.list? Relationship.ofValue?))

theorem mapM_map_eq_some {α β γ : Type} {f : α → β} {g : β → Option γ} {h : α → γ} {l : List α}
    (hf : ∀ a ∈ l, g (f a) = some (h a)) : (l.map f).mapM g = some (l.map h) := by
  induction l with
  | nil => rfl
  | cons a l ih =>
    obtain ⟨ha, hl⟩ := List.forall_mem_cons.1 hf
    rw [List.map_cons, List.mapM_cons, ha, ih hl]
    rfl

theorem list?_map {α : Type} {toJson : α → Json} {read? : Value → Option α}
    (h : ∀ a, read? (toJson a).value = some a) (items : List α) :
    (Json.array (items.map toJson)).value.list? read? = some items := by
  rw [Json.value, itemValues_eq_map, List.map_map, Value.list?,
    mapM_map_eq_some (f := value ∘ toJson) (h := id) fun a _ => h a, List.map_id]

theorem texts?_strings (items : List Text) :
    (Json.strings items).value.texts? = some items := list?_map (fun _ => rfl) items

theorem ForeignKey.ofValue?_toJson (k : ForeignKey) : ofValue? k.toJson.value = some k := rfl

theorem Relationship.ofValue?_toJson (r : Relationship) : ofValue? r.toJson.value = some r := rfl

theorem Column.ofValue?_toJson (c : Column) : ofValue? c.toJson.value = some c := by
  have hconstraints : c.toJson.value.field? "constraints" Value.texts? = some c.constraints :=
    texts?_strings c.constraints
  simp only [ofValue?, hconstraints]
  rcases c with ⟨name, dataType, isPrimaryKey, isNotNull, default | default, constraints, reference | r⟩ <;>
    rfl

theorem Table.ofValue?_toJson (t : Table) : ofValue? t.toJson.value = some t := by
  have hcolumns : t.toJson.value.field? "columns" (Value.list? Column.ofValue?) = some t.columns :=
    list?_map Column.ofValue?_toJson t.columns
  have hforeign : t.toJson.value.field? "foreign_keys" (Value.list? ForeignKey.ofValue?) =
      some t.foreignKeys := list?_map ForeignKey.ofValue?_toJson t.foreignKeys
  have hprimary : t.toJson.value.field? "primary_keys" Value.texts? = some t.primaryKeys :=
    texts?_strings t.primaryKeys
  have hindexes : t.toJson.value.field? "indexes" Value.texts? = some t.indexes :=
    texts?_strings t.indexes
  have hconstraints : t.toJson.value.field? "constraints" Value.texts? = some t.constraints :=
    texts?_strings t.constraints
  simp only [ofValue?, hcolumns, hprimary, hforeign, hindexes, hconstraints]
  rfl

theorem Schema.ofValue?_toJson (m : Schema) :
    ofValue? m.toJson.value = some (m.tables, m.relationships) := by
  have htables : m.toJson.value.field? "tables" tablesOfValue? = some m.tables := by
    have hmembers : tablesOfValue? (Json.object (m.tables.map fun t => (t.name, t.toJson))).value =
        some m.tables := by
      rw [Json.value, memberValues_eq_map, List.map_map, tablesOfValue?,
        mapM_map_eq_some (h := id), List.map_id]
      intro t _
      simp [Table.ofValue?_toJson]
    exact hmembers
  have hrelationships : m.toJson.value.field? "relationships" (Value.list? Relationship.ofValue?) =
      some m.relationships := list?_map Relationship.ofValue?_toJson m.relationships
  simp only [ofValue?, htables, hrelationships]
  rfl

theorem keysDistinct_optional (s? : Option Text) : KeysDistinct (.optional s?) := by
  cases s? with
  | none => exact .null
  | some s => exact .string s

theorem keysDistinct_array {α : Type} {toJson : α → Json} (h : ∀ a, KeysDistinct (toJson a))
    (items : List α) : KeysDistinct (.array (items.map toJson)) := by
  refine .array ?_
  intro v hv
  obtain ⟨a, -, rfl⟩ := List.mem_map.1 hv
  exact h a

theorem keysDistinct_strings (items : List Text) : KeysDistinct (.strings items) :=
  keysDistinct_array .string items

theorem keysDistinct_object {members : List (Text × Json)} (hkeys : (members.map Prod.fst).Nodup)
    (h : members.Forall fun m => KeysDistinct m.2) : KeysDistinct (.object members) :=
  .object hkeys (List.forall_iff_forall_mem.1 h)

theorem Column.keysDistinct_toJson (c : Column) : KeysDistinct c.toJson := by
  refine keysDistinct_object (of_decide_eq_true rfl) ?_
  exact ⟨.string _, .string _, .bool _, .bool _, .bool _, keysDistinct_optional _,
    keysDistinct_strings _, keysDistinct_optional _, keysDistinct_optional _⟩

theorem ForeignKey.keysDistinct_toJson (k : ForeignKey) : KeysDistinct k.toJson := by
  refine keysDistinct_object (of_decide_eq_true rfl) ?_
  exact ⟨.string _, .string _, .string _, .string _⟩

theorem Table.keysDistinct_toJson (t : Table) : KeysDistinct t.toJson := by
  refine keysDistinct_object (of_decide_eq_true rfl) ?_
  exact ⟨.string _, keysDistinct_array Column.keysDistinct_toJson _, keysDistinct_strings _,
    keysDistinct_array ForeignKey.keysDistinct_toJson _, keysDistinct_strings _,
    keysDistinct_strings _⟩

theorem Relationship.keysDistinct_toJson (r : Relationship) : KeysDistinct r.toJson := by
  refine keysDistinct_object (of_decide_eq_true rfl) ?_
  exact ⟨.string _, .string _, .string _, .string _, .string _⟩

theorem Schema.keysDistinct_toJson {m : Schema} (h : m.names.Nodup) : KeysDistinct m.toJson := by
  refine keysDistinct_object (of_decide_eq_true rfl) ?_
  refine ⟨.object ?_ ?_, keysDistinct_array Relationship.keysDistinct_toJson _⟩
  · rw [List.map_map]
    exact h
  · intro v hv
    obtain ⟨t, -, rfl⟩ := List.mem_map.1 hv
    exact t.keysDistinct_toJson

namespace Schema

/-- The ways to come to a schema. -/
inductive Built : Schema → Prop where
  | empty : Built {}
  | parse {mode : Mode} {sql : Text} {m : Schema} (h : Schema.parse mode sql = .ok m) : Built m
  | insert {m : Schema} (h : Built m) (t : Table) : Built (m.insert t)
  | markKeys {m : Schema} (h : Built m) : Built m.markKeys

theorem Built.nodup_names {m : Schema} (h : Built m) : m.names.Nodup := by
  induction h with
  | empty => exact List.nodup_nil
  | @parse mode sql m h =>
    have htables : Ensures (readStatements mode (Sql.stripComments sql))
        fun ts => (ts.map (·.name)).Nodup :=
      fun record ts after hrun => (ensures_readStatements mode _ record ts after hrun).1
    exact htables.of_parse h
  | insert _ t ih => exact nodup_put ih
  | markKeys _ ih =>
    rw [names, Schema.markKeys, List.map_map]
    exact ih

/-- Of every schema that can be built, the document is read back as its tables and relationships;
so it tells the tables of any two of them apart. -/
theorem read?_jsonText {m : Schema} (h : Built m) :
    (read? m.jsonText).bind ofValue? = some (m.tables, m.relationships) ∧
      ∀ other : Schema, Built other → other.jsonText = m.jsonText → other.tables = m.tables := by
  have hread : ∀ m : Schema, Built m →
      (read? m.jsonText).bind ofValue? = some (m.tables, m.relationships) := by
    intro m h
    rw [jsonText, read?_render (keysDistinct_toJson h.nodup_names), Option.bind_some,
      ofValue?_toJson]
  refine ⟨hread m h, ?_⟩
  intro other hother htext
  have hsame := hread other hother
  rw [htext, hread m h] at hsame
  exact (congrArg Prod.fst (Option.some.inj hsame)).symm

/-- Marks, control characters and empty texts, and a key that is marked at last. -/
theorem read?_jsonText_of_empty_texts :
    (read? (((({} : Schema).insert { name := "" }).insert {
        name := "a\"\\\n\x01\t\u00e9"
        columns := [
          { name := "/", dataType := "", default? := some "" },
          { name := "", dataType := "\x7f", constraints := ["", "]"] }]
        primaryKeys := [""]
        foreignKeys := [⟨"/", ⟨"", ""⟩, "\x0c"⟩] }).markKeys).jsonText).bind ofValue? =
      some (
        [{ name := "" },
         { name := "a\"\\\n\x01\t\u00e9"
           columns := [
            { name := "/", dataType := "", default? := some "", reference? := some ⟨"", ""⟩ },
            { name := "", dataType := "\x7f", isPrimaryKey := true, constraints := ["", "]"] }]
           primaryKeys := [""]
           foreignKeys := [⟨"/", ⟨"", ""⟩, "\x0c"⟩] }],
        [⟨"a\"\\\n\x01\t\u00e9", "/", ⟨"", ""⟩, "\x0c"⟩]) :=
  (read?_jsonText ((Built.empty.insert _).insert _).markKeys).1.trans (by decide +kernel)

end Schema

end SchemaDiagram
