import Mathlib.Data.List.Basic
import SchemaDiagram.Schema.Reading

/-!
A table body is read in two phases, clauses before columns, and the foreign keys of both are then
sorted by place. Here the same table is made in one pass over the fragments, each of which has one
use. In lenient mode the two readings agree (`readTable_eq_onePass`).
-/

set_option autoImplicit false

namespace SchemaDiagram.Sql

inductive Use where
  /-- A clause kept as text, and the key columns that it lists. -/
  | clause (raw : Text) (keys : List Text)
  | foreignKeys (keys : List ForeignKey)
  | skipped (reason : SkipReason)
  /-- A column with at most one foreign key of its own. -/
  | column (column : Column) (key? : Option ForeignKey)
  deriving DecidableEq, Repr

namespace Use

def ofClause : TableConstraint → Use
  | .foreignKeys keys => foreignKeys keys
  | .primaryKey columns raw => clause raw columns
  | .other raw => clause raw []

def ofDeclaration (table : Text) : Except SkipReason ColumnDeclaration → Use
  | .ok d => column d.column (d.reference?.map fun target =>
      ⟨d.column.name, target, foreignKeyName table [d.column.name]⟩)
  | .error reason => skipped reason

def ofFragment (table fragment : Text) : Use :=
  match TableConstraint.ofFragment? table fragment with
  | some c => ofClause c
  | none => ofDeclaration table (ColumnDeclaration.ofFragment fragment)

def isConstraint : Use → Bool
  | clause _ _ => true
  | foreignKeys _ => true
  | _ => false

def column? : Use → Option Column
  | column c _ => some c
  | _ => none

def raw? : Use → Option Text
  | clause raw _ => some raw
  | _ => none

def keyColumns : Use → List Text
  | clause _ keys => keys
  | _ => []

def allForeignKeys : Use → List ForeignKey
  | foreignKeys keys => keys
  | column _ key? => key?.toList
  | _ => []

def record? (table fragment : Text) : Use → Option Skipped
  | skipped reason => some ⟨"table " ++ table, fragment, reason⟩
  | _ => none

end Use

/-- What the fragments passed so far amount to. -/
structure Draft where
  columns : List Column := []
  keyColumns : List Text := []
  foreignKeys : List ForeignKey := []
  constraints : List Text := []
  skipped : List Skipped := []
  deriving DecidableEq, Repr

namespace Draft

def add (table : Text) (d : Draft) (fragment : Text) : Draft :=
  match Use.ofFragment table fragment with
  | .clause raw keys =>
    { d with constraints := d.constraints ++ [raw], keyColumns := d.keyColumns ++ keys }
  | .foreignKeys keys => { d with foreignKeys := d.foreignKeys ++ keys }
  | .skipped reason =>
    { d with skipped := d.skipped ++ [⟨"table " ++ table, fragment, reason⟩] }
  | .column c key? =>
    { d with columns := d.columns ++ [c], foreignKeys := d.foreignKeys ++ key?.toList }

def ownKeys (d : Draft) : List Text := (d.columns.filter (·.isPrimaryKey)).map (·.name)

def table (name : Text) (d : Draft) : Table where
  name := name
  columns := d.columns
  primaryKeys := d.ownKeys ++ (d.keyColumns.filter fun n => !d.ownKeys.contains n).eraseDups
  foreignKeys := d.foreignKeys
  constraints := d.constraints

end Draft

def onePass (table : Text) (fragments : List Text) : Draft :=
  fragments.foldl (Draft.add table) {}

theorem foldl_add (table : Text) (fragments : List Text) (d : Draft) :
    fragments.foldl (Draft.add table) d =
      { columns := d.columns ++ fragments.filterMap fun f => (Use.ofFragment table f).column?
        keyColumns := d.keyColumns ++ fragments.flatMap fun f => (Use.ofFragment table f).keyColumns
        foreignKeys :=
          d.foreignKeys ++ fragments.flatMap fun f => (Use.ofFragment table f).allForeignKeys
        constraints := d.constraints ++ fragments.filterMap fun f => (Use.ofFragment table f).raw?
        skipped :=
          d.skipped ++ fragments.filterMap fun f => (Use.ofFragment table f).record? table f } := by
  induction fragments generalizing d with
  | nil => simp
  | cons f fs ih =>
    rw [List.foldl_cons, ih]
    cases hu : Use.ofFragment table f <;>
      simp [Draft.add, hu, Use.column?, Use.keyColumns, Use.allForeignKeys, Use.raw?, Use.record?]

theorem length_eq_uses (table : Text) (fragments : List Text) :
    fragments.length =
      (fragments.filterMap fun f => (Use.ofFragment table f).column?).length +
        fragments.countP (fun f => (Use.ofFragment table f).isConstraint) +
          (fragments.filterMap fun f => (Use.ofFragment table f).record? table f).length := by
  induction fragments with
  | nil => rfl
  | cons f fs ih =>
    rw [List.length_cons, ih]
    cases hu : Use.ofFragment table f <;>
      simp [hu, Use.column?, Use.isConstraint, Use.record?] <;> omega

theorem addNew_eq (names new : List Text) :
    addNew names new = names ++ (new.filter fun n => !names.contains n).eraseDups := by
  induction new generalizing names with
  | nil => simp [addNew]
  | cons n new ih =>
    rw [addNew_cons, ih]
    by_cases hn : names.contains n = true
    · rw [if_pos hn, List.filter_cons, hn]
      rfl
    · rw [if_neg hn, List.filter_cons, if_pos (by simpa using hn), List.eraseDups_cons,
        List.filter_filter, List.append_assoc, List.singleton_append]
      congr 3
      refine List.filter_congr ?_
      intro m _
      simp only [List.contains_append, List.contains_cons, List.contains_nil, Bool.or_false,
        Bool.not_or, Bool.and_comm]

section
variable (table : Text)

def clauseParts (f : Text) : List TableConstraint := (TableConstraint.ofFragment? table f).toList

def otherParts (f : Text) : List Text :=
  if (TableConstraint.ofFragment? table f).isNone then [f] else []

def declarationParts (f : Text) : List ColumnDeclaration :=
  (ColumnDeclaration.ofFragment f).toOption.toList

theorem otherFragments_eq (fragments : List Text) :
    otherFragments table fragments =
      (Placed.numberFrom 0 fragments).flatMap (Placed.spread (otherParts table)) := by
  unfold otherFragments
  generalize 0 = n
  induction fragments generalizing n with
  | nil => rfl
  | cons f fs ih =>
    rw [Placed.numberFrom, List.filter_cons, ih, List.flatMap_cons]
    by_cases hf : (TableConstraint.ofFragment? table f).isNone <;>
      simp [Placed.spread, otherParts, hf]

theorem readColumns_lenient (fragments : List (Placed Text)) (record : List Skipped) :
    (Schema.readColumns .lenient table fragments).run record =
      .ok (fragments.flatMap (Placed.spread declarationParts),
        record ++ fragments.filterMap fun f =>
          (Use.ofDeclaration table (ColumnDeclaration.ofFragment f.value)).record? table
            f.value) := by
  induction fragments generalizing record with
  | nil =>
    rw [Schema.readColumns, StateT.run_pure, List.filterMap_nil, List.append_nil]
    rfl
  | cons f fs ih =>
    cases hf : ColumnDeclaration.ofFragment f.value with
    | ok d =>
      simp only [Schema.readColumns, hf, StateT.run_bind, ih, StateT.run_pure]
      simp [bind, Except.bind, pure, Except.pure, Placed.spread, declarationParts, hf,
        Except.toOption, Use.ofDeclaration, Use.record?]
    | error reason =>
      have hskip : (skip .lenient ⟨"table " ++ table, f.value, reason⟩).run record =
          .ok ((), record ++ [⟨"table " ++ table, f.value, reason⟩]) := rfl
      simp only [Schema.readColumns, hf, StateT.run_bind, hskip]
      simp [bind, Except.bind, ih, Placed.spread, declarationParts, hf, Except.toOption,
        Use.ofDeclaration, Use.record?]

/-- What the second phase reads, fragment by fragment. -/
def columnParts (f : Text) : List ColumnDeclaration :=
  (otherParts table f).flatMap declarationParts

theorem column_columnParts (f : Text) :
    (columnParts table f).map (·.column) = (Use.ofFragment table f).column?.toList := by
  cases hc : TableConstraint.ofFragment? table f with
  | some c =>
    cases c <;> simp [columnParts, otherParts, Use.ofFragment, hc, Use.ofClause, Use.column?]
  | none =>
    cases hd : ColumnDeclaration.ofFragment f <;>
      simp [columnParts, otherParts, declarationParts, Use.ofFragment, hc, hd, Use.ofDeclaration,
        Use.column?, Except.toOption]

theorem foreignKeys_parts (f : Text) :
    (columnParts table f).flatMap (ColumnDeclaration.foreignKeys table) ++
        (clauseParts table f).flatMap TableConstraint.declaredKeys =
      (Use.ofFragment table f).allForeignKeys := by
  cases hc : TableConstraint.ofFragment? table f with
  | some c =>
    cases c <;> simp [columnParts, otherParts, clauseParts, Use.ofFragment, hc, Use.ofClause,
      Use.allForeignKeys, TableConstraint.declaredKeys]
  | none =>
    cases hd : ColumnDeclaration.ofFragment f with
    | error reason =>
      simp [columnParts, otherParts, clauseParts, declarationParts, Use.ofFragment, hc, hd,
        Use.ofDeclaration, Use.allForeignKeys, Except.toOption]
    | ok d =>
      cases hr : d.reference? <;>
        simp [columnParts, otherParts, clauseParts, declarationParts, Use.ofFragment, hc, hd,
          Use.ofDeclaration, Use.allForeignKeys, Except.toOption, ColumnDeclaration.foreignKeys, hr]

theorem raw_clauseParts (f : Text) :
    (clauseParts table f).flatMap (fun c => c.raw?.toList) =
      (Use.ofFragment table f).raw?.toList := by
  cases hc : TableConstraint.ofFragment? table f with
  | some c =>
    cases c <;> simp [clauseParts, Use.ofFragment, hc, Use.ofClause, Use.raw?, TableConstraint.raw?]
  | none =>
    cases hd : ColumnDeclaration.ofFragment f <;>
      simp [clauseParts, Use.ofFragment, hc, hd, Use.ofDeclaration, Use.raw?]

theorem keyColumns_clauseParts (f : Text) :
    (clauseParts table f).flatMap TableConstraint.keyColumns =
      (Use.ofFragment table f).keyColumns := by
  cases hc : TableConstraint.ofFragment? table f with
  | some c =>
    cases c <;> simp [clauseParts, Use.ofFragment, hc, Use.ofClause, Use.keyColumns,
      TableConstraint.keyColumns]
  | none =>
    cases hd : ColumnDeclaration.ofFragment f <;>
      simp [clauseParts, Use.ofFragment, hc, hd, Use.ofDeclaration, Use.keyColumns]

theorem record_otherParts (f : Text) :
    (otherParts table f).filterMap (fun g =>
        (Use.ofDeclaration table (ColumnDeclaration.ofFragment g)).record? table g) =
      ((Use.ofFragment table f).record? table f).toList := by
  cases hc : TableConstraint.ofFragment? table f with
  | some c =>
    cases c <;> simp [otherParts, Use.ofFragment, hc, Use.ofClause, Use.record?]
  | none =>
    cases hd : ColumnDeclaration.ofFragment f <;>
      simp [otherParts, Use.ofFragment, hc, hd, Use.ofDeclaration, Use.record?]

end

theorem ownKeys_eq (columns : List ColumnDeclaration) :
    columns.filterMap ColumnDeclaration.ownKey? =
      ((columns.map (·.column)).filter (·.isPrimaryKey)).map (·.name) := by
  induction columns with
  | nil => rfl
  | cons d ds ih =>
    by_cases h : d.column.isPrimaryKey <;> simp [ColumnDeclaration.ownKey?, h, ih]

section
variable {name : Text} {fragments : List Text}

theorem columns_of_parts {found : List (Placed ColumnDeclaration)}
    (h : found.map Placed.value = fragments.flatMap (columnParts name)) :
    found.map (fun c => c.value.column) =
      fragments.filterMap fun f => (Use.ofFragment name f).column? := by
  have hmap : found.map (fun c => c.value.column) = (found.map Placed.value).map (·.column) := by
    rw [List.map_map]
    rfl
  rw [hmap, h, List.map_flatMap, List.filterMap_eq_flatMap_toList]
  simp only [column_columnParts]

theorem ownKeys_of_placed (found : List (Placed ColumnDeclaration)) :
    found.filterMap (fun c => c.value.ownKey?) =
      ((found.map fun c => c.value.column).filter (·.isPrimaryKey)).map (·.name) := by
  have hmap := ownKeys_eq (found.map Placed.value)
  rw [List.filterMap_map, List.map_map] at hmap
  exact hmap

theorem keyColumns_of_parts {found : List (Placed TableConstraint)}
    (h : found.map Placed.value = fragments.flatMap (clauseParts name)) :
    found.flatMap (fun c => c.value.keyColumns) =
      fragments.flatMap fun f => (Use.ofFragment name f).keyColumns := by
  have hmap : found.flatMap (fun c => c.value.keyColumns) =
      (found.map Placed.value).flatMap TableConstraint.keyColumns := by
    rw [List.flatMap_map]
  rw [hmap, h, List.flatMap_assoc]
  simp only [keyColumns_clauseParts]

theorem raw_of_parts {found : List (Placed TableConstraint)}
    (h : found.map Placed.value = fragments.flatMap (clauseParts name)) :
    found.filterMap (fun c => c.value.raw?) =
      fragments.filterMap fun f => (Use.ofFragment name f).raw? := by
  have hmap : found.filterMap (fun c => c.value.raw?) =
      (found.map Placed.value).flatMap fun c => c.raw?.toList := by
    rw [List.filterMap_eq_flatMap_toList, List.flatMap_map]
  rw [hmap, h, List.flatMap_assoc, List.filterMap_eq_flatMap_toList]
  simp only [raw_clauseParts]

end

/-- Sorting by place puts the keys of both phases into the order of the fragments. -/
theorem sort_foreignKeys (name : Text) (fragments : List Text) :
    (Placed.sort
      (((Placed.numberFrom 0 fragments).flatMap (Placed.spread (columnParts name))).flatMap
          (Placed.spread (ColumnDeclaration.foreignKeys name)) ++
        (clausesOf name fragments).flatMap (Placed.spread TableConstraint.declaredKeys))).map
          Placed.value =
      fragments.flatMap fun f => (Use.ofFragment name f).allForeignKeys := by
  have hclauses : clausesOf name fragments =
      (Placed.numberFrom 0 fragments).flatMap (Placed.spread (clauseParts name)) := rfl
  rw [hclauses, Placed.flatMap_spread_flatMap, Placed.flatMap_spread_flatMap,
    Placed.sort_spread_append, Placed.map_value_spread]
  simp only [foreignKeys_parts]

theorem tableOf_parts (name : Text) (fragments : List Text) :
    tableOf name ((otherFragments name fragments).flatMap (Placed.spread declarationParts))
        (clausesOf name fragments) =
      (onePass name fragments).table name := by
  have hfound : (otherFragments name fragments).flatMap (Placed.spread declarationParts) =
      (Placed.numberFrom 0 fragments).flatMap (Placed.spread (columnParts name)) := by
    rw [otherFragments_eq, Placed.flatMap_spread_flatMap]
    rfl
  have hcolumns := columns_of_parts (Placed.map_value_spread (columnParts name) 0 fragments)
  have hclauses : (clausesOf name fragments).map Placed.value =
      fragments.flatMap (clauseParts name) := Placed.map_value_spread (clauseParts name) 0 fragments
  have hown := ownKeys_of_placed
    ((Placed.numberFrom 0 fragments).flatMap (Placed.spread (columnParts name)))
  rw [hfound]
  simp only [tableOf, hcolumns, hown, keyColumns_of_parts hclauses, raw_of_parts hclauses,
    sort_foreignKeys, addNew_eq, onePass, foldl_add, Draft.table, Draft.ownKeys, List.nil_append]

theorem readTable_lenient (name body : Text) (record : List Skipped) :
    (Schema.readTable .lenient ⟨name, body⟩).run record =
      .ok ((onePass name (bodyFragments body)).table name,
        record ++ (onePass name (bodyFragments body)).skipped) := by
  have hcolumns := readColumns_lenient name (otherFragments name (bodyFragments body)) record
  have hskipped : (otherFragments name (bodyFragments body)).filterMap (fun f =>
        (Use.ofDeclaration name (ColumnDeclaration.ofFragment f.value)).record? name f.value) =
      (onePass name (bodyFragments body)).skipped := by
    have hmap := List.filterMap_map (l := otherFragments name (bodyFragments body))
      (f := Placed.value) (g := fun g =>
        (Use.ofDeclaration name (ColumnDeclaration.ofFragment g)).record? name g)
    rw [otherFragments_eq, Placed.map_value_spread, ← otherFragments_eq] at hmap
    rw [List.filterMap_flatMap] at hmap
    simp only [record_otherParts, ← List.filterMap_eq_flatMap_toList] at hmap
    simp only [onePass, foldl_add, List.nil_append]
    exact hmap.symm
  simp only [Schema.readTable, StateT.run_bind, hcolumns, StateT.run_pure, hskipped]
  simp only [bind, Except.bind, pure, Except.pure, tableOf_parts]

/-- A table is made in one pass in which every fragment has one use: a clause, a group of foreign
keys, a piece that is left out, or a column with at most one key of its own. -/
theorem readTable_eq_onePass (name body : Text) (record : List Skipped) :
    let fs := topLevelParts (Text.collapse body)
    ∃ (t : Table) (left : List Skipped),
      (Schema.readTable .lenient ⟨name, body⟩).run record = .ok (t, record ++ left) ∧
      t = (onePass name fs).table name ∧
      left = (onePass name fs).skipped ∧
      t.columns = fs.filterMap (fun f => (Use.ofFragment name f).column?) ∧
      t.constraints = fs.filterMap (fun f => (Use.ofFragment name f).raw?) ∧
      t.foreignKeys = fs.flatMap (fun f => (Use.ofFragment name f).allForeignKeys) ∧
      left = fs.filterMap (fun f => (Use.ofFragment name f).record? name f) ∧
      fs.length = t.columns.length + fs.countP (fun f => (Use.ofFragment name f).isConstraint) +
        left.length ∧
      t.primaryKeys = (t.columns.filter (·.isPrimaryKey)).map (·.name) ++
        ((fs.flatMap fun f => (Use.ofFragment name f).keyColumns).filter fun n =>
          !((t.columns.filter (·.isPrimaryKey)).map (·.name)).contains n).eraseDups := by
  intro fs
  have hread : (Schema.readTable .lenient ⟨name, body⟩).run record =
      .ok ((onePass name fs).table name, record ++ (onePass name fs).skipped) :=
    readTable_lenient name body record
  refine ⟨_, _, hread, rfl, rfl, ?_, ?_, ?_, ?_, ?_, ?_⟩
  all_goals simp only [onePass, foldl_add, Draft.table, Draft.ownKeys, List.nil_append]
  exact length_eq_uses name fs

end SchemaDiagram.Sql
