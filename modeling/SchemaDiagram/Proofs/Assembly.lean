import Mathlib.Data.Finset.Card
import SchemaDiagram.Proofs.KeyMarks

set_option autoImplicit false

namespace SchemaDiagram

namespace Schema

def lastNamed? (ts : List Table) (n : Text) : Option Table := (ts.filter (·.name = n)).getLast?

theorem lastNamed?_concat (ts : List Table) (t : Table) (n : Text) :
    lastNamed? (ts ++ [t]) n = if t.name = n then some t else lastNamed? ts n := by
  by_cases hname : t.name = n
  · simp [lastNamed?, hname]
  · simp [lastNamed?, hname]

theorem eraseDups_concat (names : List Text) (n : Text) :
    (names ++ [n]).eraseDups = if n ∈ names then names.eraseDups else names.eraseDups ++ [n] := by
  rw [List.eraseDups_append]
  by_cases hmem : n ∈ names
  · simp [List.removeAll, hmem]
  · simp [List.removeAll, hmem, List.eraseDups_cons]

/-- The schema holds the tables that were inserted: names where they came first, and under each of
them the table that came last. -/
structure Holds (m : Schema) (ts : List Table) : Prop where
  nodup : m.names.Nodup
  names : m.names = (ts.map (·.name)).eraseDups
  table : ∀ n, m.table? n = lastNamed? ts n

theorem Holds.insert {m : Schema} {ts : List Table} (h : m.Holds ts) (t : Table) :
    (m.insert t).Holds (ts ++ [t]) where
  nodup := nodup_put h.nodup
  names := by
    have hmem : t.name ∈ m.names ↔ t.name ∈ ts.map (·.name) := by
      rw [h.names, List.mem_eraseDups]
    rw [Schema.names, Schema.insert, map_name_put, List.map_append, List.map_singleton,
      eraseDups_concat, ← h.names, ← Schema.names]
    simp only [hmem]
  table n := by
    rw [lastNamed?_concat, ← h.table n]
    exact find?_put t n m.tables

theorem holds_insertions (ts : List Table) : (ts.foldl insert {}).Holds ts := by
  induction ts using List.reverseRecOn with
  | nil => exact ⟨List.nodup_nil, rfl, fun _ => rfl⟩
  | append_singleton ts t ih =>
    rw [List.foldl_append]
    exact ih.insert t

theorem filterMap_find? {tables : List Table} (h : (tables.map (·.name)).Nodup) :
    (tables.map (·.name)).filterMap (fun n => tables.find? (·.name = n)) = tables := by
  induction tables with
  | nil => rfl
  | cons t tables ih =>
    obtain ⟨ht, htables⟩ := List.nodup_cons.1 h
    have hfirst : (t :: tables).find? (·.name = t.name) = some t :=
      List.find?_cons_of_pos (decide_eq_true rfl)
    have hlater : ∀ n ∈ tables.map (·.name),
        (t :: tables).find? (·.name = n) = tables.find? (·.name = n) := by
      rintro n hn
      refine List.find?_cons_of_neg (mt of_decide_eq_true ?_)
      rintro rfl
      exact ht hn
    rw [List.map_cons, List.filterMap_cons, hfirst, List.filterMap_congr hlater, ih htables]

/-- The schema of any sequence of insertions. Its relationships are the foreign keys of the tables
that came last under their names, each with the name of its table. -/
theorem tables_of_insertions (ts : List Table) :
    let m := ts.foldl insert {}
    m.names.Nodup ∧ m.names = (ts.map (·.name)).eraseDups ∧
      (∀ n, m.table? n = lastNamed? ts n) ∧
      m.tables.length = (ts.map (·.name)).toFinset.card ∧
      m.relationships = (((ts.map (·.name)).eraseDups.filterMap (lastNamed? ts)).flatMap fun t =>
        t.foreignKeys.map fun k =>
          { fromTable := t.name
            fromColumn := k.column
            target := k.target
            constraintName := k.constraintName }) ∧
      m.relationships.length = m.foreignKeyCount := by
  intro m
  have h : m.Holds ts := holds_insertions ts
  refine ⟨h.nodup, h.names, h.table, ?_, ?_, (foreignKeyCount_eq m).symm⟩
  · have hsame : (ts.map (·.name)).toFinset = m.names.toFinset := by
      ext n
      rw [List.mem_toFinset, List.mem_toFinset, h.names, List.mem_eraseDups]
    rw [hsame, List.toFinset_card_of_nodup h.nodup, names, List.length_map]
  · have htables : m.names.filterMap (lastNamed? ts) = m.tables :=
      (List.filterMap_congr fun n _ => (h.table n).symm).trans (filterMap_find? h.nodup)
    rw [← h.names, htables]
    rfl

end Schema

namespace Table

theorem showKeys_showKeys (t : Table) (c : Column) : t.showKeys (t.showKeys c) = t.showKeys c := by
  simp only [showKeys, Bool.or_assoc, Bool.or_self, ← Option.or_assoc, Option.or_self]

theorem markKeys_markKeys (t : Table) : t.markKeys.markKeys = t.markKeys := by
  have hshow : t.markKeys.showKeys = t.showKeys := by
    rw [markKeys_eq]
    rfl
  have htwice : (fun c => t.showKeys (t.showKeys c)) = t.showKeys := funext t.showKeys_showKeys
  rw [markKeys_eq t.markKeys, hshow, markKeys_eq, mapFirsts_mapFirsts t.name_showKeys, htwice]

end Table

namespace Schema

/-- Marking keys changes the first column of each name in a table, where it shows the target of the
last foreign key and whether a primary key has it, and nothing else. It may be done again, and before
or after a table is inserted. -/
theorem markKeys_firsts (m : Schema) :
    m.markKeys = { m with
        tables := m.tables.map fun t => { t with columns := Table.mapFirsts t.showKeys t.columns } } ∧
      m.markKeys.markKeys = m.markKeys ∧
      ∀ t : Table, (m.insert t).markKeys = m.markKeys.insert t.markKeys := by
  refine ⟨?_, ?_, ?_⟩
  · rw [markKeys, List.map_congr_left fun t _ => t.markKeys_eq]
  · simp only [markKeys, List.map_map, Function.comp_def, Table.markKeys_markKeys]
  · intro t
    have hput := map_put (f := Table.markKeys) (fun _ => rfl) t m.tables
    simp only [markKeys, insert, hput]

end Schema

end SchemaDiagram
