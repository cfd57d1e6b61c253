import SchemaDiagram.Proofs.OnePass
import SchemaDiagram.Proofs.Reading
import SchemaDiagram.Proofs.Spacing.Parts

set_option autoImplicit false

namespace SchemaDiagram

/-- What a reading in the mode gives for a result where it leaves out `pieces`. -/
def Mode.result {α : Type} (mode : Mode) (a : α) (record pieces : List Skipped) :
    Except Skipped (α × List Skipped) :=
  match mode with
  | .lenient => .ok (a, record ++ pieces)
  | .strict => strictResult a record pieces

namespace Mode
variable {α β : Type} (mode : Mode) (record pieces : List Skipped)

theorem result_nil (a : α) : mode.result a record [] = .ok (a, record) := by
  cases mode with
  | lenient => rw [result, List.append_nil]
  | strict =>
    rw [result, strictResult, List.append_nil]
    rfl

theorem map_result (f : α → β) (a : α) :
    (mode.result a record pieces).map (Prod.map f id) = mode.result (f a) record pieces := by
  cases mode with
  | lenient => rfl
  | strict =>
    rw [result, result, strictResult, strictResult]
    cases firstFault? pieces <;> rfl

end Mode

namespace Table

def insertColumn (i : Nat) (c : Column) (t : Table) : Table :=
  { t with columns := t.columns.insertIdx i c }

def insertConstraint (i : Nat) (raw : Text) (t : Table) : Table :=
  { t with constraints := t.constraints.insertIdx i raw }

end Table

namespace Sql
open Text Unicode

/-- A table is read in one pass in both modes; the modes differ in what they do with what is left
out. -/
theorem run_readTable (mode : Mode) (name body : Text) (record : List Skipped) :
    (Schema.readTable mode ⟨name, body⟩).run record =
      mode.result ((onePass name (bodyFragments body)).table name) record
        (onePass name (bodyFragments body)).skipped := by
  have hlenient := readTable_lenient name body record
  cases mode with
  | lenient => exact hlenient
  | strict =>
    obtain ⟨t, pieces, hagree, hstrict⟩ := Schema.agrees_readTable ⟨name, body⟩ record
    rw [hlenient, Except.ok.injEq, Prod.mk.injEq, List.append_cancel_left_eq] at hagree
    obtain ⟨rfl, rfl⟩ := hagree
    exact hstrict

theorem insertIdx_length_append {α : Type} (as bs : List α) (a : α) :
    (as ++ bs).insertIdx as.length a = as ++ a :: bs := by
  induction as with
  | nil => rfl
  | cons b as ih => simp [ih]

section
variable (name : Text) (fs gs : List Text)

theorem onePass_eq : onePass name fs =
    { columns := fs.filterMap fun f => (Use.ofFragment name f).column?
      keyColumns := fs.flatMap fun f => (Use.ofFragment name f).keyColumns
      foreignKeys := fs.flatMap fun f => (Use.ofFragment name f).allForeignKeys
      constraints := fs.filterMap fun f => (Use.ofFragment name f).raw?
      skipped := fs.filterMap fun f => (Use.ofFragment name f).record? name f } := by
  simp only [onePass, foldl_add, List.nil_append]

theorem columns_onePass :
    (onePass name fs).columns = fs.filterMap fun f => (Use.ofFragment name f).column? := by
  rw [onePass_eq]

theorem keyColumns_onePass :
    (onePass name fs).keyColumns = fs.flatMap fun f => (Use.ofFragment name f).keyColumns := by
  rw [onePass_eq]

theorem foreignKeys_onePass :
    (onePass name fs).foreignKeys = fs.flatMap fun f => (Use.ofFragment name f).allForeignKeys := by
  rw [onePass_eq]

theorem table_onePass_column {f : Text} {c : Column} (hf : Use.ofFragment name f = .column c none)
    (hc : c.isPrimaryKey = false) :
    (onePass name (fs ++ f :: gs)).table name =
        ((onePass name (fs ++ gs)).table name).insertColumn (onePass name fs).columns.length c ∧
      (onePass name (fs ++ f :: gs)).skipped = (onePass name (fs ++ gs)).skipped := by
  simp [onePass_eq, Draft.table, Draft.ownKeys, Table.insertColumn, hf, hc, insertIdx_length_append,
    Use.column?, Use.keyColumns, Use.allForeignKeys, Use.raw?, Use.record?]

theorem table_onePass_clause {f raw : Text} (hf : Use.ofFragment name f = .clause raw []) :
    (onePass name (fs ++ f :: gs)).table name =
        ((onePass name (fs ++ gs)).table name).insertConstraint
          (onePass name fs).constraints.length raw ∧
      (onePass name (fs ++ f :: gs)).skipped = (onePass name (fs ++ gs)).skipped := by
  simp [onePass_eq, Draft.table, Draft.ownKeys, Table.insertConstraint, hf,
    insertIdx_length_append, Use.column?,
    Use.keyColumns, Use.allForeignKeys, Use.raw?, Use.record?]

end

end Sql

end SchemaDiagram
