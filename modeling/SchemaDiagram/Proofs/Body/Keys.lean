import SchemaDiagram.Proofs.Body.Default
import SchemaDiagram.Proofs.Body.KeyClause
import SchemaDiagram.Proofs.Body.Statement

/-!
Keys of a declared column. A declaration and a key clause take the name of a column apart in different
ways, but come to the same text where the clause can list the name; so the column that was declared
once shows the keys that name it (`keys_of_listed`).
-/

set_option autoImplicit false

namespace SchemaDiagram.Sql
open Text Unicode

theorem length_filter_name (columns : List Column) (n : Text) :
    (columns.filter (·.name = n)).length = (columns.map (·.name)).count n := by
  rw [← List.countP_eq_length_filter, List.count, List.countP_map]
  refine List.countP_congr fun c _ => ?_
  simp

theorem count_addNew_le {n : Text} {names new : List Text} (h : names.count n ≤ 1) :
    (addNew names new).count n ≤ 1 := by
  induction new generalizing names with
  | nil => exact h
  | cons a new ih =>
    rw [addNew_cons]
    refine ih ?_
    split
    · exact h
    · rename_i ha
      rw [List.count_append, List.count_singleton]
      split
      · rename_i hsame
        have hnew : n ∉ names := by
          rw [← eq_of_beq hsame]
          simpa using ha
        rw [List.count_eq_zero_of_not_mem hnew]
      · exact h

theorem Draft.count_primaryKeys {d : Draft} {n : Text} {c : Column} (name : Text)
    (hcolumns : d.columns.filter (·.name = n) = [c]) (hlisted : n ∈ d.keyColumns) :
    (d.table name).primaryKeys.count n = 1 := by
  have hown : d.ownKeys.count n ≤ 1 := by
    have hsublist : List.Sublist d.ownKeys (d.columns.map (·.name)) := List.filter_sublist.map _
    refine (hsublist.count_le n).trans ?_
    rw [← length_filter_name, hcolumns]
    rfl
  have hkeys : (d.table name).primaryKeys = addNew d.ownKeys d.keyColumns := (addNew_eq _ _).symm
  rw [hkeys]
  exact Nat.le_antisymm (count_addNew_le hown) (List.count_pos_iff.2 (mem_addNew.2 (.inr hlisted)))

theorem dataType?_blank {c : Char} (hc : isBlank c = true) (s : Text) : dataType? (c :: s) = none := by
  have hunread : ∀ w : Text, IsCapital w → keyword? w (c :: s) = none :=
    fun w hw => keyword?_of_gap hw (isWordChar_of_isBlank hc) s
  have hstart : isNameStart c = false := by
    cases hstart : isNameStart c with
    | false => rfl
    | true =>
      have hpart : isTypePart c = true := by simp [isTypePart, hstart]
      rw [Declaration.not_isTypePart_of_isBlank hc] at hpart
      cases hpart
  have hphrase : ∀ w v : Text, IsCapital w → phrase? [w, v] (c :: s) = none := by
    intro w v hw
    exact phrase?_eq_none (by rw [hunread w hw]; rfl) v []
  have hzoned : zonedTime? (c :: s) = none := by
    rw [zonedTime?, hunread "TIMESTAMP" (by decide), hunread "TIME" (by decide)]
    rfl
  have hsimple : simpleType? (c :: s) = none := by
    rw [simpleType?, typeWord?, hstart, if_neg Bool.false_ne_true]
    rfl
  rw [dataType?, typeName?, hphrase "DOUBLE" _ (by decide), hphrase "CHARACTER" _ (by decide),
    hphrase "BIT" _ (by decide), hzoned, hsimple]
  rfl

end SchemaDiagram.Sql

namespace SchemaDiagram.Table
open Sql

theorem lastTarget?_of_last {n : Text} {before keys after : List ForeignKey} {key : ForeignKey}
    (hkeys : keys.filter (·.column = n) = [key]) (hafter : ∀ k ∈ after, k.column ≠ n) :
    lastTarget? (before ++ (keys ++ after)) n = some key.target := by
  have hnone : after.filter (·.column = n) = [] :=
    List.filter_eq_nil_iff.2 fun k hk => mt of_decide_eq_true (hafter k hk)
  rw [lastTarget?, List.filter_append, List.filter_append, hkeys, hnone, List.append_nil,
    List.getLast?_concat]
  rfl

theorem filter_markKeys {t : Table} {n : Text} {c : Column}
    (h : t.columns.filter (·.name = n) = [c]) :
    t.markKeys.columns.filter (·.name = n) = [{ c with
      reference? := (lastTarget? t.foreignKeys n).or c.reference?
      isPrimaryKey := c.isPrimaryKey || t.primaryKeys.contains n }] := by
  have hlength : (t.markKeys.columns.filter (·.name = n)).length = 1 := by
    rw [length_filter_name, map_markKeys t.name_showKeys, ← length_filter_name, h]
    rfl
  obtain ⟨marked, hmarked⟩ := List.length_eq_one_iff.1 hlength
  have hname : c.name = n := by
    have hmem : c ∈ t.columns.filter (·.name = n) := h ▸ List.mem_cons_self
    simpa using List.of_mem_filter hmem
  have hfind := t.column?_markKeys n
  rw [column?, column?, ← List.head?_filter, ← List.head?_filter, h, hmarked] at hfind
  rw [hmarked, ← hname]
  exact congrArg (fun o => o.toList) hfind

end SchemaDiagram.Table

namespace SchemaDiagram.WrittenTable
open Sql Text Unicode Declaration

/-- One part of the body declares a column of the name, and no other part does. -/
structure DeclaredColumn (d : WrittenTable) (p : Part) where
  front : List Text
  part : Text
  back : List Text
  behind : Text
  parts_eq : d.parts = front ++ part :: back
  collapse_part : collapse part = p.text ++ ' ' :: behind
  hasType : (dataType? behind).isSome = true
  once : ∀ u ∈ front ++ back, ∀ c ∈ (Use.ofFragment d.name (collapse u)).column?,
    c.name ≠ normalizeName p.text

variable {d : WrittenTable} {p : Part}

namespace DeclaredColumn
variable (k : d.DeclaredColumn p)
include k

theorem ofFragment (hp : IsColumnName p.text) :
    ∃ c key?, Use.ofFragment d.name (collapse k.part) = .column c key? ∧
      c.name = normalizeName p.text := by
  obtain ⟨⟨T, tail⟩, htype⟩ := Option.isSome_iff_exists.1 k.hasType
  have hsolid : skipBlanks k.behind = k.behind := by
    cases hbehind : k.behind with
    | nil => rfl
    | cons c s =>
      refine skipBlanks_solid ?_ s
      by_contra hblank
      rw [hbehind, dataType?_blank (by simpa using hblank)] at htype
      cases htype
  have htrim := trim_collapse k.part
  rw [k.collapse_part] at htrim ⊢
  obtain ⟨c, key?, huse, hcolumn, -⟩ := hp.ofFragment htrim htype hsolid d.name
  exact ⟨c, key?, huse, hcolumn⟩

theorem filter_columns (hp : IsColumnName p.text) :
    ∃ c, (onePass d.name d.fragments).columns.filter (·.name = normalizeName p.text) = [c] := by
  obtain ⟨c, key?, huse, hname⟩ := k.ofFragment hp
  have hpart : collapse k.part ≠ [] := by
    rw [k.collapse_part]
    simp
  obtain ⟨hfront, hback⟩ := List.forall_mem_append.1 k.once
  have hnone : ∀ parts : List Text, (∀ u ∈ parts,
      ∀ c ∈ (Use.ofFragment d.name (collapse u)).column?, c.name ≠ normalizeName p.text) →
      ((collapsedParts parts).filterMap fun f => (Use.ofFragment d.name f).column?).filter
        (·.name = normalizeName p.text) = [] := by
    intro parts hparts
    refine List.filter_eq_nil_iff.2 ?_
    intro e he
    obtain ⟨f, hf, hcolumn⟩ := List.mem_filterMap.1 he
    obtain ⟨u, hu, rfl⟩ := List.mem_map.1 (List.mem_filter.1 hf).1
    exact mt of_decide_eq_true (hparts u hu e hcolumn)
  refine ⟨c, ?_⟩
  rw [columns_onePass, d.fragments_of_parts k.parts_eq hpart, List.filterMap_append,
    List.filter_append, hnone _ hfront, List.nil_append, List.filterMap_cons_some (by rw [huse]; rfl),
    List.filter_cons_of_pos (by simp [hname]), hnone _ hback]

end DeclaredColumn

theorem collapse_mem_fragments {o : Text} (ho : o ∈ d.parts) (hne : collapse o ≠ []) :
    collapse o ∈ d.fragments :=
  List.mem_filter.2 ⟨List.mem_map_of_mem ho, by simpa using hne⟩

def Lists (d : WrittenTable) (clause : Text) : Prop := ∃ o ∈ d.parts, collapse o = clause

/-- The clause is a part of the body, and no part behind it makes a key of the column. -/
def ListsLast (d : WrittenTable) (clause column : Text) : Prop :=
  ∃ front o back, d.parts = front ++ o :: back ∧ collapse o = clause ∧
    ∀ u ∈ back, ∀ key ∈ (Use.ofFragment d.name (collapse u)).allForeignKeys, key.column ≠ column

theorem Lists.mem_keyColumns {k : KeyClause p} {rest : Text} (h : d.Lists (k.text "PRIMARY" rest)) :
    normalizeName p.text ∈ (onePass d.name d.fragments).keyColumns := by
  obtain ⟨o, ho, hclause⟩ := h
  have htrim := trim_collapse o
  rw [hclause] at htrim
  have huse := k.ofFragment_primary htrim d.name
  have hmem : collapse o ∈ d.fragments := collapse_mem_fragments ho (hclause ▸ k.text_ne_nil)
  rw [keyColumns_onePass]
  refine List.mem_flatMap.2 ⟨collapse o, hmem, ?_⟩
  rw [hclause, huse]
  exact k.list.mem_names

theorem ListsLast.exists_foreignKeys {k : KeyClause p} {r : References} (hpairs : k.Pairs r)
    (h : d.ListsLast (k.text "FOREIGN" (r.text k.casing)) (normalizeName p.text)) :
    ∃ constraintName before after,
      (onePass d.name d.fragments).foreignKeys = before ++ (k.keys r constraintName ++ after) ∧
        ∀ key ∈ after, key.column ≠ normalizeName p.text := by
  obtain ⟨front, o, back, hparts, hclause, hlast⟩ := h
  have htrim := trim_collapse o
  rw [hclause] at htrim
  have huse := hpairs.ofFragment htrim d.name
  have hfragments := d.fragments_of_parts hparts (hclause ▸ k.text_ne_nil)
  let keysOf : List Text → List ForeignKey :=
    fun fs => fs.flatMap fun f => (Use.ofFragment d.name f).allForeignKeys
  refine ⟨k.constraintName d.name, keysOf (collapsedParts front), keysOf (collapsedParts back), ?_, ?_⟩
  · rw [foreignKeys_onePass, hfragments, List.flatMap_append, List.flatMap_cons, hclause, huse]
    rfl
  · intro key hkey
    obtain ⟨f, hf, hkey⟩ := List.mem_flatMap.1 hkey
    obtain ⟨u, hu, rfl⟩ := List.mem_map.1 (List.mem_filter.1 hf).1
    exact hlast u hu key hkey

/-- A column that is declared once shows the keys whose clauses list it: the mark of a primary key,
and the target of the last foreign key. The lists of the table have it once. The name may be any name
in quotes (`isColumnName_quoted`), but can be listed only without commas and closing parentheses
(`Listing.plain`). -/
theorem keys_of_listed (hd : d.Counts) (hp : IsColumnName p.text) (column : d.DeclaredColumn p)
    {sql : Text} (hsql : stripComments sql = d.text) :
    (∃ m, Schema.parse .lenient sql = .ok m) ∧
      ∀ mode m, Schema.parse mode sql = .ok m → ∃ t c,
        m.table? d.name = some t ∧ t.columns.filter (·.name = normalizeName p.text) = [c] ∧
        (∀ (k : KeyClause p) (rest : Text), d.Lists (k.text "PRIMARY" rest) →
          c.isPrimaryKey = true ∧ t.primaryKeys.count (normalizeName p.text) = 1) ∧
        ∀ (k : KeyClause p) (r : References), k.Pairs r →
          d.ListsLast (k.text "FOREIGN" (r.text k.casing)) (normalizeName p.text) →
            c.reference? = some r.target ∧ ∃ constraintName before after,
              t.foreignKeys = before ++ (k.keys r constraintName ++ after) ∧
                (k.keys r constraintName).filter (·.column = normalizeName p.text) =
                  [⟨normalizeName p.text, r.target, constraintName⟩] := by
  obtain ⟨m, hlenient, -⟩ := Schema.exists_parse_lenient sql
  refine ⟨⟨m, hlenient⟩, fun mode m h => ?_⟩
  obtain ⟨c, hcolumns⟩ := column.filter_columns hp
  let t := (onePass d.name d.fragments).table d.name
  have hmarked := Table.filter_markKeys (t := t) hcolumns
  refine ⟨_, _, hd.table?_of_parse hsql h, hmarked, ?_, ?_⟩
  · intro k rest hlists
    have hkey := hlists.mem_keyColumns
    have hcount := Draft.count_primaryKeys d.name hcolumns hkey
    have hmem : t.primaryKeys.contains (normalizeName p.text) = true :=
      List.contains_iff_mem.2 (List.count_pos_iff.1 (by rw [hcount]; exact Nat.one_pos))
    exact ⟨by rw [hmem, Bool.or_true], hcount⟩
  · intro k r hpairs hlast
    obtain ⟨constraintName, before, after, hkeys, hafter⟩ := hlast.exists_foreignKeys hpairs
    have hkey := hpairs.filter_keys constraintName
    have hforeign : t.foreignKeys = before ++ (k.keys r constraintName ++ after) := hkeys
    refine ⟨?_, constraintName, before, after, hforeign, hkey⟩
    rw [hforeign, Table.lastTarget?_of_last hkey hafter]
    rfl

def dottedTable : WrittenTable where
  before := []
  header := "create table t ("
  written := "t"
  parts := ["id INT", " \"a . b\"  INT", " primary key (id, \"a . b\")",
    " CONSTRAINT f FOREIGN KEY (\"a . b\") REFERENCES s.u (\"c d\")"]
  rest := []
  boundary := rfl
  isHeader := by decide +kernel
  whole := by decide +kernel
  ends := by decide +kernel

def dottedName : Part := .quoted "a . b" (by decide) (by decide)

def dottedColumn : dottedTable.DeclaredColumn dottedName where
  front := ["id INT"]
  part := " \"a . b\"  INT"
  back := [" primary key (id, \"a . b\")",
    " CONSTRAINT f FOREIGN KEY (\"a . b\") REFERENCES s.u (\"c d\")"]
  behind := "INT"
  parts_eq := rfl
  collapse_part := by decide +kernel
  hasType := by decide +kernel
  once := by decide +kernel

def dottedPrimary : KeyClause dottedName where
  casing := fun _ => true
  label? := none
  spaced := true
  list := {
    front := ["id"]
    lead := " "
    trail := []
    back := []
    blank := by decide
    plain := by decide +kernel
    named := by decide +kernel }

def dottedForeign : KeyClause dottedName where
  casing := fun _ => false
  label? := some (.bare "f" (by decide +kernel))
  spaced := true
  list := {
    front := []
    lead := []
    trail := []
    back := []
    blank := by decide
    plain := by decide +kernel
    named := by decide }

def dottedReferences : References where
  spaced := true
  table := ⟨some (.bare "s" (by decide +kernel)), .bare "u" (by decide +kernel)⟩
  spacedList := true
  column := .quoted "c d" (by decide) (by decide)
  list := {
    front := []
    lead := []
    trail := []
    back := []
    blank := by decide
    plain := by decide +kernel
    named := by decide }
  tail := []

theorem keys_of_listed_dotted :
    dottedTable.text = ("create table t (id INT, \"a . b\"  INT, primary key (id, \"a . b\")," ++
        " CONSTRAINT f FOREIGN KEY (\"a . b\") REFERENCES s.u (\"c d\"))" : String).toList ∧
      ∃ (m : Schema) (t : Table) (c : Column),
        Schema.parse .lenient dottedTable.text = .ok m ∧ m.table? "t" = some t ∧
        t.columns.filter (·.name = ("a.b" : Text)) = [c] ∧ c.isPrimaryKey = true ∧
        t.primaryKeys.count ("a.b" : Text) = 1 ∧ c.reference? = some ⟨"s.u", "c d"⟩ := by
  have hfindings : tableStatements.findings dottedTable.text =
      [⟨0, dottedTable.text.length, .complete dottedTable.statement⟩] := by
    decide +kernel
  have hcounts : dottedTable.Counts := by
    have hlength : dottedTable.before.length = 0 := rfl
    refine ⟨?_, ?_⟩
    · simp [hfindings, Finding.Hides, hlength]
    · simp [hfindings, hlength]
  have hsql : stripComments dottedTable.text = dottedTable.text := by decide +kernel
  have hquoted : IsColumnName dottedName.text := isColumnName_quoted _
  obtain ⟨⟨m, hm⟩, hparse⟩ := keys_of_listed hcounts hquoted dottedColumn hsql
  obtain ⟨t, c, htable, hcolumns, hprimary, hforeign⟩ := hparse .lenient m hm
  have hname : normalizeName dottedName.text = ("a.b" : Text) := by decide +kernel
  obtain ⟨hkey, hcount⟩ := hprimary dottedPrimary []
    ⟨" primary key (id, \"a . b\")", by decide +kernel, by decide +kernel⟩
  have hlast : dottedTable.ListsLast
      (dottedForeign.text "FOREIGN" (dottedReferences.text dottedForeign.casing))
      (normalizeName dottedName.text) :=
    ⟨dottedTable.parts.take 3, " CONSTRAINT f FOREIGN KEY (\"a . b\") REFERENCES s.u (\"c d\")", [],
      rfl, by decide +kernel, List.forall_mem_nil _⟩
  obtain ⟨hreference, -⟩ := hforeign dottedForeign dottedReferences ⟨rfl, rfl, nofun⟩ hlast
  rw [hname] at hcolumns hcount
  refine ⟨?_, m, t, c, hm, htable, hcolumns, hkey, hcount, hreference.trans ?_⟩
  · rw [String.toList_append, String.toList_ofList, String.toList_ofList]
    decide +kernel
  · decide +kernel

/-- The clause is cut at the comma inside of the quotes, and the column shows no key. -/
theorem keys_of_listed_comma :
    (Schema.parse .lenient "CREATE TABLE t (\"a,b\" INT, PRIMARY KEY (\"a,b\"));").map (·.tables) =
      .ok [{ name := "t"
             columns := [{ name := "a,b", dataType := "INT" }]
             primaryKeys := ["a", "b"]
             constraints := ["PRIMARY KEY (\"a,b\")"] }] := by
  decide +kernel

end SchemaDiagram.WrittenTable
