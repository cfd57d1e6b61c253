import Mathlib.Algebra.BigOperators.Group.List.Basic
import Mathlib.Algebra.GroupWithZero.Nat
import Mathlib.Data.List.Nodup
import SchemaDiagram.Proofs.KeyMarks

set_option autoImplicit false

namespace SchemaDiagram

namespace Sql

def Occurrence.columnsOn? (name : Text) : Occurrence IndexStatement → Option Text
  | .complete s => if s.table = name then some s.columns else none
  | .unterminated _ => none

def columnListsOn (name : Text) (found : List (Occurrence IndexStatement)) : List Text :=
  found.filterMap (Occurrence.columnsOn? name)

/-- What is recorded of an index that goes to none of the tables of the given names. -/
def Occurrence.leftOut? (names : List Text) : Occurrence IndexStatement → Option Skipped
  | .complete s =>
    if names.contains s.table then none
    else some ⟨"CREATE INDEX", s.table ++ " (" ++ s.columns ++ ")", .unknownIndexTable⟩
  | .unterminated header => some ⟨"CREATE INDEX", header, .unterminatedIndex⟩

def leftOutIndexes (names : List Text) (found : List (Occurrence IndexStatement)) : List Skipped :=
  found.filterMap (Occurrence.leftOut? names)

theorem columnsOn?_of_ne {s : IndexStatement} {name : Text} (h : name ≠ s.table) :
    (Occurrence.complete s).columnsOn? name = none := if_neg h.symm

theorem leftOut?_of_mem {s : IndexStatement} {names : List Text} (h : s.table ∈ names) :
    (Occurrence.complete s).leftOut? names = none := if_pos (List.contains_iff_mem.2 h)

theorem leftOut?_of_not_mem {s : IndexStatement} {names : List Text} (h : s.table ∉ names) :
    (Occurrence.complete s).leftOut? names =
      some ⟨"CREATE INDEX", s.table ++ " (" ++ s.columns ++ ")", .unknownIndexTable⟩ :=
  if_neg (mt List.contains_iff_mem.1 h)

theorem columnListsOn_cons (name : Text) (o : Occurrence IndexStatement)
    (found : List (Occurrence IndexStatement)) :
    columnListsOn name (o :: found) = (o.columnsOn? name).toList ++ columnListsOn name found := by
  cases h : o.columnsOn? name <;> simp [columnListsOn, h]

theorem leftOutIndexes_cons (names : List Text) (o : Occurrence IndexStatement)
    (found : List (Occurrence IndexStatement)) :
    leftOutIndexes names (o :: found) = (o.leftOut? names).toList ++ leftOutIndexes names found := by
  cases h : o.leftOut? names <;> simp [leftOutIndexes, h]

theorem mem_columnListsOn_iff {name columns : Text} {found : List (Occurrence IndexStatement)} :
    columns ∈ columnListsOn name found ↔
      ∃ s, .complete s ∈ found ∧ s.table = name ∧ s.columns = columns := by
  rw [columnListsOn, List.mem_filterMap]
  constructor
  · rintro ⟨s | header, ho, hcolumns⟩
    · obtain ⟨hname, hsame⟩ := Option.ite_none_right_eq_some.1 hcolumns
      exact ⟨s, ho, hname, Option.some.inj hsame⟩
    · cases hcolumns
  · rintro ⟨s, hs, rfl, rfl⟩
    exact ⟨.complete s, hs, if_pos rfl⟩

theorem sum_columnsOn?_add_leftOut? {names : List Text} (hnames : names.Nodup)
    (o : Occurrence IndexStatement) :
    (names.map fun n => (o.columnsOn? n).toList.length).sum + (o.leftOut? names).toList.length =
      1 := by
  cases o with
  | unterminated header => simp [Occurrence.columnsOn?, Occurrence.leftOut?]
  | complete s =>
    have hcount (l : List Text) : (l.map fun n =>
        ((Occurrence.complete s).columnsOn? n).toList.length).sum = l.count s.table := by
      induction l with
      | nil => rfl
      | cons n ns ih =>
        rw [List.map_cons, List.sum_cons, ih, List.count_cons]
        by_cases hn : s.table = n
        · simp [Occurrence.columnsOn?, hn, Nat.add_comm]
        · simp [Occurrence.columnsOn?, hn, Ne.symm hn]
    rw [hcount]
    by_cases hmem : s.table ∈ names
    · simp [Occurrence.leftOut?, hmem, List.count_eq_one_of_mem hnames hmem]
    · simp [Occurrence.leftOut?, hmem, List.count_eq_zero_of_not_mem hmem]

/-- No index is lost, and none lands in two places. -/
theorem sum_columnListsOn_add_leftOutIndexes {names : List Text} (hnames : names.Nodup)
    (found : List (Occurrence IndexStatement)) :
    (names.map fun n => (columnListsOn n found).length).sum +
      (leftOutIndexes names found).length = found.length := by
  induction found with
  | nil => simp [columnListsOn, leftOutIndexes]
  | cons o found ih =>
    have hfirst := sum_columnsOn?_add_leftOut? hnames o
    simp only [columnListsOn_cons, leftOutIndexes_cons, List.length_append, List.sum_map_add,
      List.length_cons]
    omega

end Sql

open Sql

namespace Table

def withIndexes (found : List (Occurrence IndexStatement)) (t : Table) : Table :=
  { t with indexes := t.indexes ++ columnListsOn t.name found }

theorem withIndexes_nil (t : Table) : t.withIndexes [] = t := by
  simp [withIndexes, columnListsOn]

theorem withIndexes_of_none {o : Occurrence IndexStatement} {t : Table}
    (h : o.columnsOn? t.name = none) (found : List (Occurrence IndexStatement)) :
    t.withIndexes (o :: found) = t.withIndexes found := by
  simp [withIndexes, columnListsOn_cons, h]

theorem withIndexes_complete (s : IndexStatement) (found : List (Occurrence IndexStatement))
    (t : Table) :
    (if t.name = s.table then { t with indexes := t.indexes ++ [s.columns] } else t).withIndexes
      found = t.withIndexes (.complete s :: found) := by
  by_cases hname : t.name = s.table
  · simp [withIndexes, columnListsOn_cons, Occurrence.columnsOn?, hname]
  · rw [if_neg hname, withIndexes_of_none (columnsOn?_of_ne hname)]

end Table

namespace Schema

/-- Adding indexes step by step comes to one change of each table, and one record of the rest. -/
theorem readIndexes_lenient (found : List (Occurrence IndexStatement)) {tables : List Table}
    (hnames : (tables.map (·.name)).Nodup) (record : List Skipped) :
    (readIndexes .lenient found tables).run record =
      .ok (tables.map (Table.withIndexes found),
        record ++ leftOutIndexes (tables.map (·.name)) found) := by
  induction found generalizing tables record with
  | nil =>
    have hsame : tables.map (Table.withIndexes []) = tables :=
      (List.map_congr_left fun t _ => t.withIndexes_nil).trans (List.map_id tables)
    rw [hsame, leftOutIndexes, List.filterMap_nil, List.append_nil]
    rfl
  | cons o found ih =>
    cases o with
    | unterminated header =>
      have hnext := ih hnames (record ++ [⟨"CREATE INDEX", header, .unterminatedIndex⟩])
      rw [List.append_assoc] at hnext
      exact hnext
    | complete s =>
      unfold readIndexes
      by_cases hany : tables.any (·.name = s.table) = true
      · have hmem : s.table ∈ tables.map (·.name) := by simpa using hany
        -- The index stands in front of those that are still to come.
        have hkept := map_name_addIndex (·.name = s.table) s.columns tables
        have hnext := ih (hkept ▸ hnames) record
        rw [hkept, modifyFirst_of_nodup hnames, List.map_map] at hnext
        have htables : tables.map (Table.withIndexes found ∘ fun t =>
            if t.name = s.table then { t with indexes := t.indexes ++ [s.columns] } else t) =
              tables.map (Table.withIndexes (.complete s :: found)) :=
          List.map_congr_left fun t _ => t.withIndexes_complete s found
        rw [if_pos hany, modifyFirst_of_nodup hnames, hnext, htables, leftOutIndexes_cons,
          leftOut?_of_mem hmem]
        rfl
      · have hmem : s.table ∉ tables.map (·.name) := by simpa using hany
        have htables : tables.map (Table.withIndexes (.complete s :: found)) =
            tables.map (Table.withIndexes found) := by
          refine List.map_congr_left fun t ht => Table.withIndexes_of_none ?_ found
          exact columnsOn?_of_ne fun hname => hmem (List.mem_map.2 ⟨t, ht, hname⟩)
        have hnext := ih hnames
          (record ++ [⟨"CREATE INDEX", s.table ++ " (" ++ s.columns ++ ")", .unknownIndexTable⟩])
        rw [if_neg hany, htables, leftOutIndexes_cons, leftOut?_of_not_mem hmem,
          ← List.append_assoc record]
        exact hnext

theorem ensures_unindexed (mode : Mode) (found : List (Occurrence TableStatement))
    {tables : List Table} (htables : ∀ t ∈ tables, t.indexes = []) :
    Ensures (readTables mode found tables) fun ts => ∀ t ∈ ts, t.indexes = [] := by
  induction found generalizing tables with
  | nil => exact Ensures.pure htables
  | cons o rest ih =>
    cases o with
    | unterminated header => exact (Ensures.trivial _).bind fun _ _ => ih htables
    | complete s =>
      have hread : Ensures (readTable mode s) fun t => t.indexes = [] := by
        unfold readTable
        exact (Ensures.trivial _).bind fun _ _ => Ensures.pure rfl
      refine hread.bind fun t ht => ih fun u hu => ?_
      rcases mem_put hu with rfl | hu
      · exact ht
      · exact htables u hu

theorem nodup_names_of_parse {mode : Mode} {sql : Text} {m : Schema}
    (h : parse mode sql = .ok m) : m.names.Nodup :=
  (ensures_readStatements mode _ [] m.tables m.skipped (run_of_parse h)).1

theorem exists_readTables_of_parse {mode : Mode} {sql : Text} {m : Schema}
    (h : parse mode sql = .ok m) :
    ∃ (tables : List Table) (skipped : List Skipped),
      (readTables mode (tableOccurrences (stripComments sql)) []).run [] = .ok (tables, skipped) ∧
      m.tables = tables.map (fun t =>
        t.markKeys.withIndexes (indexOccurrences (stripComments sql))) ∧
      m.skipped = skipped ++ leftOutIndexes m.names (indexOccurrences (stripComments sql)) := by
  obtain ⟨tables, skipped, htables, hindexes⟩ := exists_run_of_bind (run_of_parse h)
  have hlenient : (readIndexes .lenient (indexOccurrences (stripComments sql))
      (tables.map Table.markKeys)).run skipped = .ok (m.tables, m.skipped) := by
    cases mode with
    | lenient => exact hindexes
    | strict => exact (agrees_readIndexes _ _).run_lenient hindexes
  have hnames : ((tables.map Table.markKeys).map (·.name)).Nodup := by
    have hread := @ensures_readTables mode (tableOccurrences (stripComments sql)) []
      List.nodup_nil (by simp) [] tables skipped htables
    rw [List.map_map]
    exact hread.1
  rw [readIndexes_lenient _ hnames, List.map_map] at hlenient
  obtain ⟨hm, hskipped⟩ := Prod.mk.inj (Except.ok.inj hlenient)
  refine ⟨tables, skipped, htables, hm.symm, ?_⟩
  have hkept : m.names = (tables.map Table.markKeys).map (·.name) := by
    simp only [names, ← hm, List.map_map]
    rfl
  rw [hkept, ← hskipped]

/-- Each table has the lists of the indexes that name it, wherever these stand, and the others end
the record in their order. But for its indexes, a table is as its declaration and keys leave it. -/
theorem indexes_of_parse {mode : Mode} {sql : Text} {m : Schema} (h : parse mode sql = .ok m) :
    let found := indexOccurrences (stripComments sql)
    (∀ t ∈ m.tables, t.indexes = columnListsOn t.name found) ∧
      (m.tables.map (·.indexes.length)).sum + (leftOutIndexes m.names found).length =
        found.length ∧
      ∃ (tables : List Table) (skipped : List Skipped),
        (readTables mode (tableOccurrences (stripComments sql)) []).run [] = .ok (tables, skipped) ∧
        m.tables = tables.map (fun t => { t.markKeys with indexes := columnListsOn t.name found }) ∧
        m.skipped = skipped ++ leftOutIndexes m.names found := by
  intro found
  obtain ⟨tables, skipped, hread, htables, hskipped⟩ := exists_readTables_of_parse h
  have hnone : ∀ t ∈ tables, t.indexes = [] :=
    ensures_unindexed mode _ (by simp) [] tables skipped hread
  have hshown : m.tables =
      tables.map fun t => { t.markKeys with indexes := columnListsOn t.name found } := by
    rw [htables]
    refine List.map_congr_left fun t ht => ?_
    have hmarked : t.markKeys.indexes = [] := hnone t ht
    rw [Table.withIndexes, hmarked, List.nil_append]
    rfl
  have hlists : ∀ t ∈ m.tables, t.indexes = columnListsOn t.name found := by
    intro t ht
    rw [hshown] at ht
    obtain ⟨u, -, rfl⟩ := List.mem_map.1 ht
    rfl
  refine ⟨hlists, ?_, tables, skipped, hread, hshown, hskipped⟩
  rw [← sum_columnListsOn_add_leftOutIndexes (nodup_names_of_parse h) found, names, List.map_map]
  congr 2
  exact List.map_congr_left fun t ht => congrArg List.length (hlists t ht)

/-- An index before its table, which is declared twice, one on no table, and one without an end. -/
theorem indexes_of_repeated_table :
    let sql : Text := "CREATE INDEX i ON a (x); CREATE TABLE a (id INT); CREATE INDEX ON b (y);
      CREATE TABLE a (x INT); CREATE INDEX j ON a (x,  id); CREATE INDEX k ON a (x"
    ∃ m : Schema, parse .lenient sql = .ok m ∧
      m.tables.map (·.indexes) = [["x".toList, "x, id".toList]] ∧
      m.skipped = [⟨"CREATE INDEX", "b (y)", .unknownIndexTable⟩,
        ⟨"CREATE INDEX", "CREATE INDEX k ON a (", .unterminatedIndex⟩] ∧
      ∀ t ∈ m.tables, t.indexes = columnListsOn t.name (indexOccurrences (stripComments sql)) := by
  intro sql
  have h : parse .lenient sql = .ok {
      tables := [{
        name := "a"
        columns := [{ name := "x", dataType := "INT" }]
        indexes := ["x", "x, id"] }]
      skipped := [⟨"CREATE INDEX", "b (y)", .unknownIndexTable⟩,
        ⟨"CREATE INDEX", "CREATE INDEX k ON a (", .unterminatedIndex⟩] } := by
    decide +kernel
  exact ⟨_, h, rfl, rfl, (indexes_of_parse h).1⟩

end Schema

end SchemaDiagram
