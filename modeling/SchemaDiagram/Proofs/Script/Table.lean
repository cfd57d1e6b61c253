import SchemaDiagram.Proofs.Script.Fragment

set_option autoImplicit false

namespace SchemaDiagram.Script
open Sql Unicode Text

namespace Fragment
variable (table : Text) (f : Fragment)

theorem column?_use : (f.use table).column? = f.line?.map ColumnLine.ownColumn := by
  cases f <;> rfl

theorem keyColumns_use : (f.use table).keyColumns = f.keyColumns := by
  cases f <;> rfl

theorem allForeignKeys_use : (f.use table).allForeignKeys = f.foreignKeys table := by
  cases f with
  | column c => cases hr : c.reference? <;> simp [use, Use.allForeignKeys, foreignKeys, hr]
  | primaryKey columns h => rfl
  | foreignKey name? target pairs h => rfl

theorem raw?_use : (f.use table).raw? = f.raw? := by
  cases f <;> rfl

theorem record?_use (fragment : Text) : (f.use table).record? table fragment = none := by
  cases f <;> rfl

end Fragment

namespace TableLines

theorem clean_bodyText {fragments : List Fragment} (h : fragments ≠ []) :
    Clean (bodyText fragments) := by
  refine clean_join_comma (by simpa using h) ?_
  intro p hp
  obtain ⟨f, -, rfl⟩ := List.mem_map.1 hp
  exact f.clean

theorem trim_bodyText (fragments : List Fragment) :
    Text.trim (bodyText fragments) = bodyText fragments := by
  cases fragments with
  | nil => rfl
  | cons f fs => exact trim_of_tidy (clean_bodyText (List.cons_ne_nil f fs)).tidy.tidyFrom

theorem bodyFragments_bodyText (fragments : List Fragment) :
    bodyFragments (bodyText fragments) = fragments.map Fragment.text := by
  have hcollapse : collapse (bodyText fragments) = bodyText fragments := by
    cases fragments with
    | nil => rfl
    | cons f fs => exact collapse_of_tidy (clean_bodyText (List.cons_ne_nil f fs)).tidy.tidyFrom
  rw [bodyFragments, hcollapse]
  refine topLevelParts_join ?_ ?_
  · intro p hp
    obtain ⟨f, -, rfl⟩ := List.mem_map.1 hp
    exact f.level
  · intro p hp
    obtain ⟨f, -, rfl⟩ := List.mem_map.1 hp
    exact f.clean.tidy

def declared (t : TableLines) : Table where
  name := t.name.text
  columns := t.lines.map ColumnLine.ownColumn
  primaryKeys := t.keys
  foreignKeys := t.foreignKeys
  constraints := t.fragments.filterMap Fragment.raw?

theorem readTable_text (t : TableLines) (record : List Skipped) :
    (Schema.readTable .lenient ⟨t.name.text, bodyText t.fragments⟩).run record =
      .ok (t.declared, record) := by
  have huse : ∀ f : Fragment, Use.ofFragment t.name.text f.text = f.use t.name.text :=
    Fragment.ofFragment_text t.name
  have hcolumns : t.fragments.filterMap (fun f => f.line?.map ColumnLine.ownColumn) =
      t.lines.map ColumnLine.ownColumn := by
    rw [lines, List.map_filterMap]
  have hown : ((t.lines.map ColumnLine.ownColumn).filter (·.isPrimaryKey)).map (·.name) =
      t.ownKeys := by
    rw [List.filter_map, List.map_map]
    rfl
  have hdraft : onePass t.name.text (t.fragments.map Fragment.text) =
      { columns := t.lines.map ColumnLine.ownColumn
        keyColumns := t.fragments.flatMap Fragment.keyColumns
        foreignKeys := t.foreignKeys
        constraints := t.fragments.filterMap Fragment.raw?
        skipped := [] } := by
    simp only [onePass, foldl_add, List.nil_append, List.filterMap_map, List.flatMap_map,
      Function.comp_def, huse, Fragment.column?_use, Fragment.keyColumns_use,
      Fragment.allForeignKeys_use, Fragment.raw?_use, Fragment.record?_use, hcolumns]
    simp [foreignKeys]
  have hread := readTable_lenient t.name.text (bodyText t.fragments) record
  rw [bodyFragments_bodyText, hdraft, List.append_nil] at hread
  rw [hread]
  simp only [Draft.table, Draft.ownKeys, hown]
  rfl

theorem isKey_or_contains (t : TableLines) {c : ColumnLine} (hc : c ∈ t.lines) :
    (c.isKey || t.keys.contains c.name.text) = t.keys.contains c.name.text := by
  cases hkey : c.isKey with
  | false => rfl
  | true =>
    have hown : c.name.text ∈ t.ownKeys :=
      List.mem_map.2 ⟨c, List.mem_filter.2 ⟨hc, hkey⟩, rfl⟩
    have hmem : c.name.text ∈ t.keys := List.mem_append_left _ hown
    simp [hmem]

theorem markKeys_declared (t : TableLines) : t.declared.markKeys = t.table [] := by
  have hnames : (t.declared.columns.map (·.name)).Nodup := by
    rw [declared, List.map_map]
    exact t.distinct
  have hcolumns : t.declared.columns.map t.declared.showKeys =
      t.lines.map (ColumnLine.column t.keys t.foreignKeys) := by
    rw [declared, List.map_map]
    refine List.map_congr_left fun c hc => ?_
    -- The line declares no reference, and a key of its own is among those of the table.
    have hkey := t.isKey_or_contains hc
    simp only [Function.comp_apply, Table.showKeys, ColumnLine.ownColumn, hkey, Option.or_none]
    rfl
  rw [Table.markKeys_eq, Table.mapFirsts_of_nodup hnames, hcolumns]
  rfl

end TableLines

end SchemaDiagram.Script
