import Mathlib.Data.List.Basic
import SchemaDiagram.Proofs.Reading
import SchemaDiagram.Proofs.Store

/-!
Keys stand twice in a schema: in the lists of a table and on its columns. After reading, the two
agree (`KeysShown`). Reading a body gives tables whose keys are only declared (`KeysDeclared`);
marking shows them on the first column of each name (`markKeys_eq`), and nothing that follows touches
a key.
-/

set_option autoImplicit false

namespace SchemaDiagram
open Sql

namespace Table

/-- The target of the last key that has the column. -/
def lastTarget? (keys : List ForeignKey) (column : Text) : Option Reference :=
  (keys.filter (·.column = column)).getLast?.map (·.target)

theorem exists_of_lastTarget? {keys : List ForeignKey} {column : Text} {target : Reference}
    (h : lastTarget? keys column = some target) : ∃ k ∈ keys, k.target = target := by
  obtain ⟨k, hk, htarget⟩ := Option.map_eq_some_iff.1 h
  exact ⟨k, List.mem_of_mem_filter (List.mem_of_getLast? hk), htarget⟩

/-- The first column of each name shows the keys of that name, and no other one a reference. -/
structure KeysShown (t : Table) : Prop where
  primary : ∀ (name : Text) (c : Column), t.column? name = some c →
    (c.isPrimaryKey = true ↔ name ∈ t.primaryKeys)
  reference : ∀ (name : Text) (c : Column), t.column? name = some c →
    c.reference? = lastTarget? t.foreignKeys name
  repeated : t.columns.Pairwise fun c d => c.name = d.name → d.reference? = none
  distinct : (t.columns.map (·.name)).Nodup → t.primaryKeys.Nodup

/-- Columns know only what they declare themselves. -/
structure KeysDeclared (t : Table) : Prop where
  unmarked : ∀ c ∈ t.columns, c.reference? = none
  listed : ∀ c ∈ t.columns, c.isPrimaryKey = true → c.name ∈ t.primaryKeys
  distinct : (t.columns.map (·.name)).Nodup → t.primaryKeys.Nodup

def pointing (target : Reference) (c : Column) : Column := { c with reference? := target }

def keyed (c : Column) : Column := { c with isPrimaryKey := true }

/-- Changes the first column of each name. -/
def mapFirsts (f : Column → Column) (columns : List Column) : List Column :=
  columns.mapIdx fun i c => if (columns.take i).any (·.name = c.name) then c else f c

section
variable {f g : Column → Column}

theorem mapFirsts_cons (f : Column → Column) (c : Column) (columns : List Column) :
    mapFirsts f (c :: columns) =
      f c :: mapFirsts (fun d => if d.name = c.name then d else f d) columns := by
  rw [mapFirsts, List.mapIdx_cons, mapFirsts, List.take_zero, List.any_nil,
    if_neg Bool.false_ne_true]
  congr 2
  funext i d
  rw [List.take_succ_cons, List.any_cons]
  by_cases hname : d.name = c.name
  · simp [hname]
  · simp [hname, Ne.symm hname]

theorem getElem?_mapFirsts (f : Column → Column) (columns : List Column) (i : Nat) :
    (mapFirsts f columns)[i]? =
      columns[i]?.map fun c => if (columns.take i).any (·.name = c.name) then c else f c := by
  rw [mapFirsts, List.getElem?_mapIdx]

theorem mapFirsts_id (columns : List Column) : mapFirsts (fun c => c) columns = columns := by
  refine List.ext_getElem? fun i => ?_
  rw [getElem?_mapFirsts]
  simp only [ite_self, Option.map_id']

theorem map_mapFirsts {β : Type} {p : Column → β} (hf : ∀ c, p (f c) = p c) (columns : List Column) :
    (mapFirsts f columns).map p = columns.map p := by
  refine List.ext_getElem? fun i => ?_
  rw [List.getElem?_map, getElem?_mapFirsts, Option.map_map, List.getElem?_map]
  congr 1
  funext c
  simp only [Function.comp_apply]
  split
  · rfl
  · exact hf c

theorem mapFirsts_mapFirsts (hf : ∀ c, (f c).name = c.name) (columns : List Column) :
    mapFirsts g (mapFirsts f columns) = mapFirsts (fun c => g (f c)) columns := by
  refine List.ext_getElem? fun i => ?_
  have hnames : ∀ n : Text, ((mapFirsts f columns).take i).any (·.name = n) =
      (columns.take i).any (·.name = n) := by
    intro n
    have htake : ((mapFirsts f columns).take i).map (·.name) = (columns.take i).map (·.name) := by
      rw [List.map_take, List.map_take, map_mapFirsts hf]
    have hany := congrArg (List.any · (· = n)) htake
    rwa [List.any_map, List.any_map] at hany
  rw [getElem?_mapFirsts, getElem?_mapFirsts, getElem?_mapFirsts, Option.map_map]
  congr 1
  funext c
  cases hearlier : (columns.take i).any (·.name = c.name) with
  | true => simp only [Function.comp_apply, hnames, hearlier, if_true]
  | false => simp only [Function.comp_apply, hnames, hearlier, Bool.false_eq_true, if_false, hf]

theorem find?_mapFirsts (hf : ∀ c, (f c).name = c.name) (n : Text) (columns : List Column) :
    (mapFirsts f columns).find? (·.name = n) = (columns.find? (·.name = n)).map f := by
  induction columns generalizing f with
  | nil => rfl
  | cons c columns ih =>
    rw [mapFirsts_cons]
    by_cases hname : c.name = n
    · rw [List.find?_cons_of_pos (by simp [hf, hname]), List.find?_cons_of_pos (by simp [hname])]
      rfl
    · rw [List.find?_cons_of_neg (by simp [hf, hname]), List.find?_cons_of_neg (by simp [hname]), ih]
      · refine Option.map_congr fun d hd => ?_
        have hd : d.name = n := by simpa using List.find?_some hd
        exact if_neg fun hsame => hname (hsame.symm.trans hd)
      · intro d
        split
        · rfl
        · exact hf d

theorem mapFirsts_of_nodup {columns : List Column} (h : (columns.map (·.name)).Nodup)
    (f : Column → Column) : mapFirsts f columns = columns.map f := by
  induction columns generalizing f with
  | nil => rfl
  | cons c columns ih =>
    obtain ⟨hc, hcolumns⟩ := List.nodup_cons.1 h
    rw [mapFirsts_cons, ih hcolumns, List.map_cons]
    refine congrArg (f c :: ·) (List.map_congr_left fun d hd => if_neg fun hsame => ?_)
    exact hc (List.mem_map.2 ⟨d, hd, hsame⟩)

theorem mem_mapFirsts {d : Column} {columns : List Column} (h : d ∈ mapFirsts f columns) :
    ∃ c ∈ columns, d = c ∨ d = f c := by
  obtain ⟨i, hi, rfl⟩ := List.mem_mapIdx.1 h
  refine ⟨columns[i], List.getElem_mem hi, ?_⟩
  split
  · exact Or.inl rfl
  · exact Or.inr rfl

/-- A change of the first column of each name gives the later ones of the name no reference. -/
theorem repeated_mapFirsts (hf : ∀ c, (f c).name = c.name) {columns : List Column}
    (h : ∀ c ∈ columns, c.reference? = none) :
    (mapFirsts f columns).Pairwise fun c d => c.name = d.name → d.reference? = none := by
  induction columns generalizing f with
  | nil => exact List.Pairwise.nil
  | cons c columns ih =>
    obtain ⟨-, hcolumns⟩ := List.forall_mem_cons.1 h
    rw [mapFirsts_cons]
    refine List.pairwise_cons.2 ⟨?_, ih ?_ hcolumns⟩
    · intro d hd hname
      rw [hf] at hname
      obtain ⟨e, he, rfl | rfl⟩ := mem_mapFirsts hd
      · exact hcolumns _ he
      · by_cases hsame : e.name = c.name
        · rw [if_pos hsame]
          exact hcolumns e he
        · rw [if_neg hsame, hf] at hname
          exact absurd hname.symm hsame
    · intro d
      split
      · rfl
      · exact hf d

theorem modifyColumn_eq (n : Text) (f : Column → Column) (columns : List Column) :
    modifyColumn n f columns = mapFirsts (fun c => if c.name = n then f c else c) columns := by
  induction columns with
  | nil => rfl
  | cons c columns ih =>
    rw [mapFirsts_cons, modifyColumn, Schema.modifyFirst]
    by_cases hname : c.name = n
    · have hothers : (fun d : Column => if d.name = c.name then d else if d.name = n then f d else d) =
          fun d => d := by
        funext d
        by_cases hd : d.name = c.name
        · rw [if_pos hd]
        · rw [if_neg hd, if_neg (hname ▸ hd)]
      rw [hothers, mapFirsts_id, if_pos hname, if_pos (decide_eq_true hname)]
    · have hothers : (fun d : Column => if d.name = c.name then d else if d.name = n then f d else d) =
          fun d => if d.name = n then f d else d := by
        funext d
        by_cases hd : d.name = c.name
        · rw [if_pos hd, if_neg (hd ▸ hname)]
        · rw [if_neg hd]
      rw [hothers, ← ih, if_neg hname, if_neg (by simpa using hname)]
      rfl

/-- Marking the columns of keys one after the other changes each first column once. -/
theorem marks_eq {κ : Type} {n : κ → Text} {f : κ → Column → Column}
    (hf : ∀ k c, (f k c).name = c.name) (keys : List κ) (columns : List Column) :
    keys.foldl (fun cs k => modifyColumn (n k) (f k) cs) columns =
      mapFirsts (fun c => keys.foldl (fun d k => if c.name = n k then f k d else d) c) columns := by
  induction keys generalizing columns with
  | nil => exact (mapFirsts_id columns).symm
  | cons k ks ih =>
    rw [List.foldl_cons, ih, modifyColumn_eq, mapFirsts_mapFirsts]
    · congr 1
      funext c
      by_cases hname : c.name = n k
      · simp only [if_pos hname, hf, List.foldl_cons]
      · simp only [if_neg hname, List.foldl_cons]
    · intro c
      split
      · exact hf k c
      · rfl

def referring (keys : List ForeignKey) (c : Column) : Column :=
  { c with reference? := (lastTarget? keys c.name).or c.reference? }

def keyedBy (keys : List Text) (c : Column) : Column :=
  { c with isPrimaryKey := c.isPrimaryKey || keys.contains c.name }

def showKeys (t : Table) (c : Column) : Column :=
  { c with
    reference? := (lastTarget? t.foreignKeys c.name).or c.reference?
    isPrimaryKey := c.isPrimaryKey || t.primaryKeys.contains c.name }

theorem name_referring (keys : List ForeignKey) (c : Column) : (referring keys c).name = c.name := rfl

theorem name_showKeys (t : Table) (c : Column) : (t.showKeys c).name = c.name := rfl

theorem markReferences_eq (keys : List ForeignKey) (columns : List Column) :
    markReferences keys columns = mapFirsts (referring keys) columns := by
  -- What the keys of one name do to a column.
  have hcolumn : ∀ (n : Text) (c : Column),
      keys.foldl (fun d k => if n = k.column then pointing k.target d else d) c =
        { c with reference? := (lastTarget? keys n).or c.reference? } := by
    intro n
    induction keys with
    | nil => exact fun _ => rfl
    | cons k ks ih =>
      intro c
      rw [List.foldl_cons, ih]
      by_cases hk : n = k.column
      · cases hlast : (ks.filter (·.column = k.column)).getLast? <;>
          simp [lastTarget?, pointing, hk, hlast, List.getLast?_cons]
      · simp [lastTarget?, hk, Ne.symm hk]
  refine (marks_eq (f := fun k => pointing k.target) (fun _ _ => rfl) keys columns).trans ?_
  simp only [hcolumn]
  rfl

theorem markPrimaryKeys_eq (keys : List Text) (columns : List Column) :
    markPrimaryKeys keys columns = mapFirsts (keyedBy keys) columns := by
  have hcolumn : ∀ (n : Text) (c : Column),
      keys.foldl (fun d k => if n = k then keyed d else d) c =
        { c with isPrimaryKey := c.isPrimaryKey || keys.contains n } := by
    intro n
    induction keys with
    | nil => exact fun c => by simp
    | cons k ks ih =>
      intro c
      rw [List.foldl_cons, ih]
      by_cases hk : n = k
      · simp [keyed, hk]
      · simp [hk]
  refine (marks_eq (n := fun k => k) (f := fun _ => keyed) (fun _ _ => rfl) keys columns).trans ?_
  simp only [hcolumn]
  rfl

end

/-- Marking goes through the keys, and comes to one change of the first column of each name. -/
theorem markKeys_eq (t : Table) :
    t.markKeys = { t with columns := mapFirsts t.showKeys t.columns } := by
  rw [markKeys, markPrimaryKeys_eq, markReferences_eq, mapFirsts_mapFirsts (name_referring _)]
  rfl

theorem map_markKeys {β : Type} {p : Column → β} {t : Table} (hp : ∀ c, p (t.showKeys c) = p c) :
    t.markKeys.columns.map p = t.columns.map p := by
  rw [markKeys_eq, map_mapFirsts hp]

theorem column?_markKeys (t : Table) (n : Text) :
    t.markKeys.column? n = (t.column? n).map t.showKeys := by
  rw [markKeys_eq]
  exact find?_mapFirsts t.name_showKeys n t.columns

theorem KeysDeclared.markKeys {t : Table} (h : KeysDeclared t) : KeysShown t.markKeys := by
  have hfind : ∀ (name : Text) (c : Column), t.markKeys.column? name = some c →
      ∃ d ∈ t.columns, d.name = name ∧ c = t.showKeys d := by
    intro name c hc
    rw [column?_markKeys] at hc
    obtain ⟨d, hd, rfl⟩ := Option.map_eq_some_iff.1 hc
    have hname : d.name = name := by simpa using List.find?_some hd
    exact ⟨d, List.mem_of_find?_eq_some hd, hname, rfl⟩
  constructor
  · intro name c hc
    obtain ⟨d, hd, rfl, rfl⟩ := hfind name c hc
    have hlisted := h.listed d hd
    simp only [showKeys, Bool.or_eq_true, List.contains_iff_mem, markKeys_eq]
    exact ⟨fun hor => hor.elim hlisted id, Or.inr⟩
  · intro name c hc
    obtain ⟨d, hd, rfl, rfl⟩ := hfind name c hc
    rw [showKeys, h.unmarked d hd, Option.or_none, markKeys_eq]
  · rw [markKeys_eq]
    exact repeated_mapFirsts t.name_showKeys h.unmarked
  · intro hnames
    rw [markKeys_eq, map_mapFirsts t.name_showKeys] at hnames
    rw [markKeys_eq]
    exact h.distinct hnames

end Table

namespace Sql

theorem mem_addNew {n : Text} {names new : List Text} :
    n ∈ addNew names new ↔ n ∈ names ∨ n ∈ new := by
  induction new generalizing names with
  | nil => simp [addNew]
  | cons a new ih =>
    rw [addNew_cons, ih]
    split
    · rename_i ha
      have ha : a ∈ names := by simpa using ha
      constructor
      · rintro (h | h) <;> simp [h]
      · rintro (h | h)
        · exact Or.inl h
        · rcases List.mem_cons.1 h with rfl | h
          · exact Or.inl ha
          · exact Or.inr h
    · simp [or_assoc]

theorem nodup_addNew {names new : List Text} (h : names.Nodup) : (addNew names new).Nodup := by
  induction new generalizing names with
  | nil => exact h
  | cons a new ih =>
    rw [addNew_cons]
    refine ih ?_
    split
    · exact h
    · rename_i ha
      have ha : a ∉ names := by simpa using ha
      refine List.nodup_append.2 ⟨h, by simp, ?_⟩
      intro b hb c hc
      rw [List.mem_singleton.1 hc]
      exact fun hba => ha (hba ▸ hb)

theorem reference?_ofFragment {fragment : Text} {d : ColumnDeclaration}
    (h : ColumnDeclaration.ofFragment fragment = .ok d) : d.column.reference? = none := by
  unfold ColumnDeclaration.ofFragment at h
  split at h
  · cases h
  · split at h
    · cases h
    · split at h
      · rename_i d' hd
        cases h
        simp only [ColumnDeclaration.ofFragment?, Option.bind_eq_bind,
          Option.bind_eq_some_iff, Option.pure_def, Option.some.injEq] at hd
        obtain ⟨head, -, rfl⟩ := hd
        rfl
      · cases h

theorem ownKeys_sublist (columns : List (Placed ColumnDeclaration)) :
    List.Sublist (columns.filterMap fun c => c.value.ownKey?)
      ((columns.map fun c => c.value.column).map (·.name)) := by
  induction columns with
  | nil => exact List.Sublist.slnil
  | cons c cs ih =>
    by_cases h : c.value.column.isPrimaryKey
    · simpa [ColumnDeclaration.ownKey?, h] using ih
    · simpa [ColumnDeclaration.ownKey?, h] using ih.cons c.value.column.name

theorem keysDeclared_tableOf (name : Text) (columns : List (Placed ColumnDeclaration))
    (clauses : List (Placed TableConstraint))
    (h : ∀ c ∈ columns, c.value.column.reference? = none) :
    (tableOf name columns clauses).KeysDeclared := by
  constructor
  · intro c hc
    obtain ⟨p, hp, rfl⟩ := List.mem_map.1 hc
    exact h p hp
  · intro c hc hkey
    obtain ⟨p, hp, rfl⟩ := List.mem_map.1 hc
    refine mem_addNew.2 (Or.inl (List.mem_filterMap.2 ⟨p, hp, ?_⟩))
    simp [ColumnDeclaration.ownKey?, hkey]
  · intro hnames
    exact nodup_addNew ((ownKeys_sublist columns).nodup hnames)

end Sql

namespace Schema

theorem ensures_readColumns (mode : Mode) (table : Text) (fragments : List (Placed Text)) :
    Ensures (readColumns mode table fragments)
      fun columns => ∀ c ∈ columns, c.value.column.reference? = none := by
  induction fragments with
  | nil => exact Ensures.pure (by simp)
  | cons f fs ih =>
    unfold readColumns
    cases hf : ColumnDeclaration.ofFragment f.value with
    | error reason => exact (Ensures.trivial _).bind fun _ _ => ih
    | ok d =>
      refine ih.bind ?_
      intro columns hcolumns
      refine Ensures.pure ?_
      intro c hc
      rcases List.mem_cons.1 hc with rfl | hc
      · exact reference?_ofFragment hf
      · exact hcolumns c hc

theorem ensures_readTable (mode : Mode) (statement : TableStatement) :
    Ensures (readTable mode statement) Table.KeysDeclared := by
  unfold readTable
  refine (ensures_readColumns mode _ _).bind ?_
  intro columns hcolumns
  exact Ensures.pure (keysDeclared_tableOf _ columns _ hcolumns)

theorem ensures_readTables (mode : Mode) (found : List (Occurrence TableStatement))
    {tables : List Table} (hnames : (tables.map (·.name)).Nodup)
    (htables : ∀ t ∈ tables, t.KeysDeclared) :
    Ensures (readTables mode found tables)
      fun ts => (ts.map (·.name)).Nodup ∧ ∀ t ∈ ts, t.KeysDeclared := by
  induction found generalizing tables with
  | nil => exact Ensures.pure ⟨hnames, htables⟩
  | cons o rest ih =>
    cases o with
    | unterminated header => exact (Ensures.trivial _).bind fun _ _ => ih hnames htables
    | complete s =>
      refine (ensures_readTable mode s).bind ?_
      intro t ht
      refine ih (nodup_put hnames) ?_
      intro u hu
      rcases mem_put hu with rfl | hu
      · exact ht
      · exact htables u hu

theorem ensures_readIndexes (mode : Mode) (found : List (Occurrence IndexStatement))
    {tables : List Table} (hnames : (tables.map (·.name)).Nodup)
    (htables : ∀ t ∈ tables, t.KeysShown) :
    Ensures (readIndexes mode found tables)
      fun ts => (ts.map (·.name)).Nodup ∧ ∀ t ∈ ts, t.KeysShown := by
  induction found generalizing tables with
  | nil => exact Ensures.pure ⟨hnames, htables⟩
  | cons o rest ih =>
    cases o with
    | unterminated header => exact (Ensures.trivial _).bind fun _ _ => ih hnames htables
    | complete s =>
      unfold readIndexes
      split
      · refine ih ?_ ?_
        · rw [map_name_addIndex]
          exact hnames
        · intro t ht
          rcases mem_modifyFirst ht with ht | ⟨u, hu, -, rfl⟩
          · exact htables t ht
          · obtain ⟨hprimary, hreference, hrepeated, hdistinct⟩ := htables u hu
            exact ⟨hprimary, hreference, hrepeated, hdistinct⟩
      · exact (Ensures.trivial _).bind fun _ _ => ih hnames htables

theorem ensures_readStatements (mode : Mode) (sql : Text) :
    Ensures (readStatements mode sql)
      fun ts => (ts.map (·.name)).Nodup ∧ ∀ t ∈ ts, t.KeysShown := by
  refine (@ensures_readTables mode _ [] List.nodup_nil (by simp)).bind ?_
  intro tables htables
  refine ensures_readIndexes mode _ ?_ ?_
  · rw [List.map_map]
    exact htables.1
  · intro t ht
    obtain ⟨u, hu, rfl⟩ := List.mem_map.1 ht
    exact (htables.2 u hu).markKeys

/-- Of every schema that is read, tables have different names, and each shows its keys. -/
theorem keysShown_of_parse {mode : Mode} {sql : Text} {m : Schema}
    (h : parse mode sql = .ok m) : m.names.Nodup ∧ ∀ t ∈ m.tables, t.KeysShown := by
  simp only [parse, bind, Except.bind] at h
  cases hrun : (readStatements mode (stripComments sql)).run [] with
  | error p =>
    rw [hrun] at h
    cases h
  | ok result =>
    rw [hrun] at h
    cases h
    exact ensures_readStatements mode (stripComments sql) [] result.1 result.2 hrun

/-- A repeated column, a clause after its columns, and two keys of one column. -/
theorem keysShown_of_repeated_column :
    let m : Schema := {
      tables := [{
        name := "a"
        columns := [
          { name := "id", dataType := "INT", isPrimaryKey := true },
          { name := "b", dataType := "INT", isPrimaryKey := true, reference? := some ⟨"t", "d"⟩ },
          { name := "id", dataType := "TEXT" }]
        primaryKeys := ["id", "b"]
        foreignKeys := [⟨"b", ⟨"t", "c"⟩, "a_b_b_fkey"⟩, ⟨"b", ⟨"t", "d"⟩, "a_b_b_fkey"⟩]
        indexes := ["b"]
        constraints := ["PRIMARY KEY (b, id)"] }] }
    parse .strict "CREATE TABLE a (id INT PRIMARY KEY, b INT, id TEXT, PRIMARY KEY (b, id),
        FOREIGN KEY (b, b) REFERENCES t (c, d)); CREATE INDEX i ON a (b);" = .ok m ∧
      m.names.Nodup ∧ ∀ t ∈ m.tables, t.KeysShown := by
  intro m
  have hm : parse .strict "CREATE TABLE a (id INT PRIMARY KEY, b INT, id TEXT, PRIMARY KEY (b, id),
        FOREIGN KEY (b, b) REFERENCES t (c, d)); CREATE INDEX i ON a (b);" = .ok m := by
    decide +kernel
  exact ⟨hm, keysShown_of_parse hm⟩

end Schema

end SchemaDiagram
