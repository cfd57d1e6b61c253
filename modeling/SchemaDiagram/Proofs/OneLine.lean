import SchemaDiagram.Proofs.Characters
import SchemaDiagram.Proofs.KeyMarks

/-!
Where the texts of a schema come from. Bodies and column lists are collapsed before anything is
read from them, so of all that a table keeps besides its name nothing holds a line feed
(`oneLines_of_parse`). Only the name of a foreign key may, as it may contain that of the table.
-/

set_option autoImplicit false

namespace SchemaDiagram
open Sql Text Unicode

namespace Text

def OneLine (s : Text) : Prop := '\n' ∉ s

instance (s : Text) : Decidable (OneLine s) := inferInstanceAs (Decidable (¬ _))

theorem OneLine.of_subset {s t : Text} (hs : OneLine s) (h : t ⊆ s) : OneLine t :=
  fun hbreak => hs (h hbreak)

theorem OneLine.cons {c : Char} {s : Text} (hs : OneLine s) (hc : c ≠ '\n') : OneLine (c :: s) := by
  intro hbreak
  rcases List.mem_cons.1 hbreak with hbreak | hbreak
  · exact hc hbreak.symm
  · exact hs hbreak

theorem OneLine.append {s t : Text} (hs : OneLine s) (ht : OneLine t) : OneLine (s ++ t) := by
  intro hbreak
  rcases List.mem_append.1 hbreak with hbreak | hbreak
  · exact hs hbreak
  · exact ht hbreak

theorem oneLine_collapse (s : Text) : OneLine (collapse s) := by
  intro hbreak
  cases eq_space_of_mem_collapse hbreak (by decide)

end Text

def Reference.contents (r : Reference) : List Text := [r.table, r.column]

def Column.contents (c : Column) : List Text :=
  [c.name, c.dataType] ++ c.default?.toList ++ c.constraints ++
    c.reference?.toList.flatMap Reference.contents

def ForeignKey.contents (k : ForeignKey) : List Text := k.column :: k.target.contents

/-- The texts that a table keeps besides its name and those of its foreign keys. -/
def Table.contents (t : Table) : List Text :=
  t.columns.flatMap Column.contents ++ t.primaryKeys ++ t.foreignKeys.flatMap ForeignKey.contents ++
    t.indexes ++ t.constraints

def OneLines (texts : List Text) : Prop := ∀ s ∈ texts, OneLine s

instance (texts : List Text) : Decidable (OneLines texts) :=
  inferInstanceAs (Decidable (∀ s ∈ texts, OneLine s))

namespace OneLines
variable {α : Type}

theorem append {texts others : List Text} :
    OneLines (texts ++ others) ↔ OneLines texts ∧ OneLines others := by
  simp only [OneLines, List.mem_append, or_imp, forall_and]

theorem cons {s : Text} {texts : List Text} :
    OneLines (s :: texts) ↔ OneLine s ∧ OneLines texts := List.forall_mem_cons

theorem nil : OneLines [] := List.forall_mem_nil _

theorem singleton {s : Text} (h : OneLine s) : OneLines [s] := cons.2 ⟨h, nil⟩

theorem ite {p : Prop} [Decidable p] {texts : List Text} (h : OneLines texts) :
    OneLines (if p then texts else []) := by
  split
  · exact h
  · exact nil

theorem toList {s? : Option Text} : OneLines s?.toList ↔ ∀ s, s? = some s → OneLine s := by
  simp only [OneLines, Option.mem_toList]

theorem flatMap {f : α → List Text} {l : List α} :
    OneLines (l.flatMap f) ↔ ∀ a ∈ l, OneLines (f a) := by
  simp only [OneLines, List.mem_flatMap]
  exact ⟨fun h a ha s hs => h s ⟨a, ha, hs⟩, fun h s ⟨a, ha, hs⟩ => h a ha s hs⟩

end OneLines

namespace Sql

theorem oneLine_normalizeName {s : Text} (h : OneLine s) : OneLine (normalizeName s) :=
  (h.cons (by decide)).of_subset (normalizeName_subset s)

theorem oneLines_nameList {s : Text} (h : OneLine s) : OneLines (nameList s) :=
  fun _ hn => (h.cons (by decide)).of_subset (subset_of_mem_nameList hn)

section
variable {tail masked : Text} (h : OneLine tail)
include h

theorem oneLine_defaultValue? {v : Text} (hv : defaultValue? tail masked = some v) : OneLine v := by
  simp only [defaultValue?, Option.bind_eq_bind, Option.bind_eq_some_iff] at hv
  obtain ⟨found, -, rest, hrest, hv⟩ := hv
  split at hv
  · cases hv
  · cases hv
    exact (h.of_subset (dropBytes?_suffix hrest).subset).of_subset (value_subset rest)

theorem oneLine_checkClause? {clause : Text} (hc : checkClause? tail masked = some clause) :
    OneLine clause := by
  simp only [checkClause?, Option.bind_eq_bind, Option.bind_eq_some_iff, Option.pure_def,
    Option.some.injEq] at hc
  obtain ⟨found, -, head, hhead, rest, hrest, ⟨inside, after⟩, hgroup, rfl⟩ := hc
  have hinside := (h.of_subset (dropBytes?_suffix hrest).subset).of_subset (group?_subset hgroup)
  exact ((h.of_subset (slice?_subset hhead)).append hinside).append (by decide)

theorem oneLines_referenceClause? {s r : Text} {target : Reference} (hs : s ⊆ tail)
    (hr : referenceClause? s = some (target, r)) : OneLines target.contents := by
  simp only [referenceClause?, Option.bind_eq_bind, Option.bind_eq_some_iff, Option.pure_def,
    Option.some.injEq, Prod.mk.injEq] at hr
  obtain ⟨t, ht, ⟨table, u⟩, hu, v, hv, ⟨column, w⟩, hw, x, hx, rfl, rfl⟩ := hr
  have ht := (h.of_subset hs).of_subset (clause?_suffix ht).subset
  have hbehind := (skipBlanks_suffix v).trans ((mark?_suffix hv).trans ((skipBlanks_suffix u).trans
    (qualifiedName?_suffix hu)))
  have hcolumn := (ht.of_subset hbehind.subset).of_subset (name?_subset hw)
  refine OneLines.cons.2 ⟨?_, OneLines.cons.2 ⟨oneLine_normalizeName hcolumn, OneLines.nil⟩⟩
  exact oneLine_normalizeName (ht.of_subset (qualifiedName?_subset hu))

theorem oneLines_inlineReference? {target : Reference}
    (hr : inlineReference? tail masked = some target) : OneLines target.contents := by
  obtain ⟨found, hfound, rfl⟩ := Option.map_eq_some_iff.1 hr
  obtain ⟨s, r, hs, hread⟩ := exists_of_searchFrom? hfound
  exact oneLines_referenceClause? h hs.subset hread

end

theorem oneLines_ofFragment? {fragment : Text} (h : OneLine fragment) {d : ColumnDeclaration}
    (hd : ColumnDeclaration.ofFragment? fragment = some d) :
    OneLines d.column.contents ∧ ∀ target, d.reference? = some target → OneLines target.contents := by
  simp only [ColumnDeclaration.ofFragment?, Option.bind_eq_bind, Option.bind_eq_some_iff,
    Option.pure_def, Option.some.injEq] at hd
  obtain ⟨⟨name, type, tail⟩, hhead, rfl⟩ := hd
  have hfragment := h.of_subset (trim_subset fragment)
  obtain ⟨written, t, u, hwritten, hu, htype, rfl⟩ := columnHead?_eq_some_iff.1 hhead
  have hu := hfragment.of_subset ((blanks?_suffix hu).trans (name?_suffix hwritten)).subset
  have htail := hu.of_subset (dataType?_subset htype).2.subset
  have hname := oneLine_normalizeName (hfragment.of_subset (name?_subset hwritten))
  have hunique : OneLines (if hasPhrase ["UNIQUE"] (Quoting.mask tail) then ["UNIQUE"] else []) :=
    OneLines.ite (by decide)
  refine ⟨?_, fun target htarget => oneLines_inlineReference? htail htarget⟩
  simp only [Column.contents, OneLines.append, OneLines.cons, OneLines.toList]
  refine ⟨⟨⟨⟨hname, hu.of_subset (dataType?_subset htype).1, OneLines.nil⟩, ?_⟩, hunique, ?_⟩,
    OneLines.nil⟩
  · exact fun v hv => oneLine_defaultValue? htail hv
  · exact fun c hc => oneLine_checkClause? htail hc

namespace TableConstraint

def contents : TableConstraint → List Text
  | foreignKeys keys => keys.flatMap ForeignKey.contents
  | primaryKey columns raw => raw :: columns
  | other raw => [raw]

theorem oneLines_foreignKeys? {table definition : Text} {name : Option Text}
    {keys : List ForeignKey} (h : OneLine definition)
    (hkeys : foreignKeys? table name definition = some keys) :
    OneLines (keys.flatMap ForeignKey.contents) := by
  simp only [foreignKeys?, Option.bind_eq_bind, Option.bind_eq_some_iff] at hkeys
  obtain ⟨⟨columns, target, targets⟩, hclause, hkeys⟩ := hkeys
  simp only [foreignKeyClause?, Option.bind_eq_bind, Option.bind_eq_some_iff, Option.pure_def,
    Option.some.injEq, Prod.mk.injEq] at hclause
  obtain ⟨t, ht, ⟨columns', u⟩, hu, v, hv, ⟨target', w⟩, hw, ⟨targets', x⟩, hx, rfl, rfl, rfl⟩ :=
    hclause
  have ht := h.of_subset (shrinks_phrase? _ _ _ ht).subset
  have hv := ht.of_subset ((clause?_suffix hv).trans
    ((skipBlanks_suffix u).trans (parenthesized?_subset hu).2)).subset
  have hw' := hv.of_subset (qualifiedName?_suffix hw).subset
  have htable := oneLine_normalizeName (hv.of_subset (qualifiedName?_subset hw))
  have hcolumns := oneLines_nameList (ht.of_subset (parenthesized?_subset hu).1)
  have htargets := oneLines_nameList (hw'.of_subset (parenthesized?_subset hx).1)
  split at hkeys
  · cases hkeys
  · cases hkeys
    refine OneLines.flatMap.2 ?_
    intro k hk
    rw [← List.map_uncurry_zip_eq_zipWith] at hk
    obtain ⟨⟨c, n⟩, hpair, rfl⟩ := List.mem_map.1 hk
    have hc := hcolumns c (List.of_mem_zip hpair).1
    have hn := htargets n (List.of_mem_zip hpair).2
    exact OneLines.cons.2 ⟨hc, OneLines.cons.2 ⟨htable, OneLines.cons.2 ⟨hn, OneLines.nil⟩⟩⟩

theorem oneLines_ofDefinition {table definition raw : Text} {name : Option Text}
    (h : OneLine definition) (hraw : OneLine raw) :
    OneLines (ofDefinition table name definition raw).contents := by
  unfold ofDefinition
  split
  · rename_i keys hkeys
    exact oneLines_foreignKeys? h hkeys
  · split
    · rename_i columns hcolumns
      simp only [primaryKey?, Option.bind_eq_bind, Option.bind_eq_some_iff] at hcolumns
      obtain ⟨t, ht, ⟨inside, u⟩, hu, hcolumns⟩ := hcolumns
      have ht := h.of_subset (shrinks_phrase? _ _ _ ht).subset
      split at hcolumns
      · cases hcolumns
      · cases hcolumns
        exact OneLines.cons.2 ⟨hraw, oneLines_nameList (ht.of_subset (parenthesized?_subset hu).1)⟩
    · exact OneLines.cons.2 ⟨hraw, OneLines.nil⟩

theorem oneLines_ofFragment? {table fragment : Text} (h : OneLine fragment) {c : TableConstraint}
    (hc : ofFragment? table fragment = some c) : OneLines c.contents := by
  have hfragment := h.of_subset (trim_subset fragment)
  simp only [ofFragment?] at hc
  split at hc
  · rename_i name definition hnamed
    cases hc
    simp only [namedConstraint?, Option.bind_eq_bind, Option.bind_eq_some_iff, Option.pure_def,
      Option.some.injEq, Prod.mk.injEq] at hnamed
    obtain ⟨t, ht, ⟨written, u⟩, hu, v, hv, rfl, rfl⟩ := hnamed
    have ht := hfragment.of_subset (clause?_suffix ht).subset
    have hv := ht.of_subset ((blanks?_suffix hv).trans (name?_suffix hu)).subset
    have hdefinition := hv.of_subset (trim_subset v)
    have hname := oneLine_normalizeName (ht.of_subset (name?_subset hu))
    have hlead : OneLine "CONSTRAINT " := by decide
    exact oneLines_ofDefinition hdefinition
      (((hlead.append hname).append (by decide)).append hdefinition)
  · split at hc
    · cases hc
      exact oneLines_ofDefinition hfragment hfragment
    · cases hc

end TableConstraint

theorem oneLine_of_mem_bodyFragments {body f : Text} (h : f ∈ bodyFragments body) : OneLine f :=
  (oneLine_collapse body).of_subset (subset_of_mem_topLevelParts h)

namespace Placed
variable {α : Type}

theorem value_mem_of_mem_numberFrom {n : Nat} {l : List α} {p : Placed α}
    (h : p ∈ numberFrom n l) : p.value ∈ l := by
  induction l generalizing n with
  | nil => cases h
  | cons a l ih =>
    rcases List.mem_cons.1 h with rfl | h
    · exact List.mem_cons_self
    · exact List.mem_cons_of_mem a (ih h)

theorem mem_of_mem_sort {p : Placed α} {l : List (Placed α)} (h : p ∈ sort l) : p ∈ l := by
  have hplace : p ∈ (sort l).filter (·.place = p.place) := List.mem_filter.2 ⟨h, by simp⟩
  rw [filter_sort] at hplace
  exact (List.mem_filter.1 hplace).1

end Placed

def ColumnDeclaration.contents (d : ColumnDeclaration) : List Text :=
  d.column.contents ++ d.reference?.toList.flatMap Reference.contents

theorem oneLines_ofFragment {fragment : Text} (h : OneLine fragment) {d : ColumnDeclaration}
    (hd : ColumnDeclaration.ofFragment fragment = .ok d) : OneLines d.contents := by
  unfold ColumnDeclaration.ofFragment at hd
  split at hd
  · cases hd
  · split at hd
    · cases hd
    · split at hd
      · rename_i d' hd'
        cases hd
        obtain ⟨hcolumn, hreference⟩ := oneLines_ofFragment? h hd'
        refine OneLines.append.2 ⟨hcolumn, OneLines.flatMap.2 ?_⟩
        exact fun target htarget => hreference target (Option.mem_toList.1 htarget)
      · cases hd

theorem ColumnDeclaration.contents_subset_of_mem_foreignKeys {table : Text} {d : ColumnDeclaration}
    {k : ForeignKey} (h : k ∈ d.foreignKeys table) : k.contents ⊆ d.contents := by
  unfold ColumnDeclaration.foreignKeys at h
  split at h
  · rename_i target htarget
    rw [List.mem_singleton.1 h]
    refine List.cons_subset.2 ⟨by simp [ColumnDeclaration.contents, Column.contents], ?_⟩
    exact fun s hs => List.mem_append_right _ (by simpa [htarget] using hs)
  · cases h

theorem TableConstraint.contents_subset_of_mem_declaredKeys {c : TableConstraint} {k : ForeignKey}
    (h : k ∈ c.declaredKeys) : k.contents ⊆ c.contents := by
  cases c with
  | foreignKeys keys => exact fun s hs => List.mem_flatMap.2 ⟨k, h, hs⟩
  | primaryKey columns raw => cases h
  | other raw => cases h

theorem TableConstraint.keyColumns_subset (c : TableConstraint) : c.keyColumns ⊆ c.contents := by
  cases c <;> simp [keyColumns, contents]

theorem TableConstraint.mem_contents_of_raw? {c : TableConstraint} {raw : Text}
    (h : c.raw? = some raw) : raw ∈ c.contents := by
  cases c <;> simp_all [raw?, contents]

theorem oneLines_tableOf {name : Text} {columns : List (Placed ColumnDeclaration)}
    {clauses : List (Placed TableConstraint)}
    (hcolumns : ∀ c ∈ columns, OneLines c.value.contents)
    (hclauses : ∀ c ∈ clauses, OneLines c.value.contents) :
    OneLines (tableOf name columns clauses).contents := by
  simp only [Table.contents, OneLines.append]
  refine ⟨⟨⟨⟨OneLines.flatMap.2 ?_, ?_⟩, OneLines.flatMap.2 ?_⟩, OneLines.nil⟩, ?_⟩
  · intro c hc
    obtain ⟨p, hp, rfl⟩ := List.mem_map.1 hc
    exact (OneLines.append.1 (hcolumns p hp)).1
  · intro key hkey
    rcases mem_addNew.1 hkey with hkey | hkey
    · obtain ⟨c, hc, hown⟩ := List.mem_filterMap.1 hkey
      simp only [ColumnDeclaration.ownKey?, Option.ite_none_right_eq_some, Option.some.injEq]
        at hown
      obtain ⟨-, rfl⟩ := hown
      exact hcolumns c hc _ (by simp [ColumnDeclaration.contents, Column.contents])
    · obtain ⟨c, hc, hkey⟩ := List.mem_flatMap.1 hkey
      exact hclauses c hc key (c.value.keyColumns_subset hkey)
  · intro k hk
    obtain ⟨p, hp, rfl⟩ := List.mem_map.1 hk
    rcases List.mem_append.1 (Placed.mem_of_mem_sort hp) with hp | hp
    · obtain ⟨c, hc, hp⟩ := List.mem_flatMap.1 hp
      obtain ⟨key, hkey, rfl⟩ := List.mem_map.1 hp
      exact fun s hs =>
        hcolumns c hc s (ColumnDeclaration.contents_subset_of_mem_foreignKeys hkey hs)
    · obtain ⟨c, hc, hp⟩ := List.mem_flatMap.1 hp
      obtain ⟨key, hkey, rfl⟩ := List.mem_map.1 hp
      exact fun s hs =>
        hclauses c hc s (TableConstraint.contents_subset_of_mem_declaredKeys hkey hs)
  · intro raw hraw
    obtain ⟨c, hc, hraw⟩ := List.mem_filterMap.1 hraw
    exact hclauses c hc raw (TableConstraint.mem_contents_of_raw? hraw)

/-- What is found as a statement was made of a header and the inside of a list. -/
theorem StatementKind.exists_of_mem_occurrences {η α : Type} {kind : StatementKind η α}
    {before : Option Char} {s : Text} {a : α} (h : .complete a ∈ kind.occurrencesAfter before s) :
    ∃ header inside, a = kind.content header inside := by
  fun_induction StatementKind.occurrencesAfter kind before s with
  | case1 => cases h
  | case2 before c s hr ih => exact ih h
  | case3 before c s header afterOpen hr inside rest hl ih =>
    rcases List.mem_cons.1 h with h | h
    · cases h
      exact ⟨header, inside, rfl⟩
    · exact ih h
  | case4 before c s header afterOpen hr hl ih =>
    rcases List.mem_cons.1 h with h | h
    · cases h
    · exact ih h

end Sql

namespace Table

theorem oneLines_markKeys {t : Table} (h : OneLines t.contents) : OneLines t.markKeys.contents := by
  simp only [contents, OneLines.append] at h
  obtain ⟨⟨⟨⟨hcolumns, hprimary⟩, hforeign⟩, hindexes⟩, hconstraints⟩ := h
  rw [markKeys_eq]
  simp only [contents, OneLines.append]
  refine ⟨⟨⟨⟨OneLines.flatMap.2 fun c hc => ?_, hprimary⟩, hforeign⟩, hindexes⟩, hconstraints⟩
  obtain ⟨d, hd, rfl | rfl⟩ := mem_mapFirsts hc
  · exact OneLines.flatMap.1 hcolumns _ hd
  have hcolumn := OneLines.flatMap.1 hcolumns d hd
  simp only [Column.contents, OneLines.append] at hcolumn ⊢
  refine ⟨hcolumn.1, OneLines.flatMap.2 fun target htarget => ?_⟩
  rcases Option.or_eq_some_iff.1 (Option.mem_toList.1 htarget) with hlast | ⟨-, hown⟩
  · obtain ⟨k, hk, rfl⟩ := exists_of_lastTarget? hlast
    exact (OneLines.cons.1 (OneLines.flatMap.1 hforeign k hk)).2
  · exact OneLines.flatMap.1 hcolumn.2 target (Option.mem_toList.2 hown)

end Table

namespace Schema

theorem ensures_oneLines_readColumns (mode : Mode) (table : Text) {fragments : List (Placed Text)}
    (h : ∀ f ∈ fragments, OneLine f.value) :
    Ensures (readColumns mode table fragments)
      fun columns => ∀ c ∈ columns, OneLines c.value.contents := by
  induction fragments with
  | nil => exact Ensures.pure (List.forall_mem_nil _)
  | cons f fs ih =>
    have hrest := ih fun g hg => h g (List.mem_cons_of_mem f hg)
    unfold readColumns
    cases hf : ColumnDeclaration.ofFragment f.value with
    | error reason => exact (Ensures.trivial _).bind fun _ _ => hrest
    | ok d =>
      refine hrest.bind ?_
      intro columns hcolumns
      have hd := oneLines_ofFragment (h f List.mem_cons_self) hf
      exact Ensures.pure (List.forall_mem_cons.2 ⟨hd, hcolumns⟩)

theorem ensures_oneLines_readTable (mode : Mode) (statement : TableStatement) :
    Ensures (readTable mode statement) fun t => OneLines t.contents := by
  unfold readTable
  have hfragments : ∀ f ∈ Placed.numberFrom 0 (bodyFragments statement.body), OneLine f.value :=
    fun f hf => oneLine_of_mem_bodyFragments (Placed.value_mem_of_mem_numberFrom hf)
  refine (ensures_oneLines_readColumns mode statement.name
    fun f hf => hfragments f (List.mem_filter.1 hf).1).bind ?_
  intro columns hcolumns
  refine Ensures.pure (oneLines_tableOf hcolumns ?_)
  intro c hc
  obtain ⟨f, hf, hc⟩ := List.mem_flatMap.1 hc
  obtain ⟨v, hv, rfl⟩ := List.mem_map.1 hc
  exact TableConstraint.oneLines_ofFragment? (hfragments f hf) (Option.mem_toList.1 hv)

theorem ensures_oneLines_readTables (mode : Mode) (found : List (Occurrence TableStatement))
    {tables : List Table} (h : ∀ t ∈ tables, OneLines t.contents) :
    Ensures (readTables mode found tables) fun ts => ∀ t ∈ ts, OneLines t.contents := by
  induction found generalizing tables with
  | nil => exact Ensures.pure h
  | cons o rest ih =>
    cases o with
    | unterminated header => exact (Ensures.trivial _).bind fun _ _ => ih h
    | complete s =>
      refine (ensures_oneLines_readTable mode s).bind ?_
      intro t ht
      refine ih ?_
      intro u hu
      rcases mem_put hu with rfl | hu
      · exact ht
      · exact h u hu

theorem ensures_oneLines_readIndexes (mode : Mode) {found : List (Occurrence IndexStatement)}
    (hfound : ∀ s, .complete s ∈ found → OneLine s.columns)
    {tables : List Table} (h : ∀ t ∈ tables, OneLines t.contents) :
    Ensures (readIndexes mode found tables) fun ts => ∀ t ∈ ts, OneLines t.contents := by
  induction found generalizing tables with
  | nil => exact Ensures.pure h
  | cons o rest ih =>
    have hrest := fun s hs => hfound s (List.mem_cons_of_mem o hs)
    cases o with
    | unterminated header => exact (Ensures.trivial _).bind fun _ _ => ih hrest h
    | complete s =>
      unfold readIndexes
      split
      · refine ih hrest ?_
        intro t ht
        rcases mem_modifyFirst ht with ht | ⟨u, hu, -, rfl⟩
        · exact h t ht
        · have htable := h u hu
          simp only [Table.contents, OneLines.append] at htable ⊢
          obtain ⟨⟨hlists, hindexes⟩, hconstraints⟩ := htable
          have hcolumns := hfound s List.mem_cons_self
          exact ⟨⟨hlists, hindexes, OneLines.cons.2 ⟨hcolumns, OneLines.nil⟩⟩, hconstraints⟩
      · exact (Ensures.trivial _).bind fun _ _ => ih hrest h

theorem ensures_oneLines_readStatements (mode : Mode) (sql : Text) :
    Ensures (readStatements mode sql) fun ts => ∀ t ∈ ts, OneLines t.contents := by
  refine (ensures_oneLines_readTables mode _ (List.forall_mem_nil _)).bind ?_
  intro tables htables
  refine ensures_oneLines_readIndexes mode ?_ ?_
  · intro s hs
    obtain ⟨header, inside, rfl⟩ := StatementKind.exists_of_mem_occurrences hs
    exact oneLine_collapse inside
  · intro t ht
    obtain ⟨u, hu, rfl⟩ := List.mem_map.1 ht
    exact Table.oneLines_markKeys (htables u hu)

/-- A schema that is read keeps no line feed besides those in the names of its tables. -/
theorem oneLines_of_parse {mode : Mode} {sql : Text} {m : Schema} (h : parse mode sql = .ok m) :
    ∀ t ∈ m.tables, OneLines t.contents :=
  (ensures_oneLines_readStatements mode (stripComments sql)).of_parse h

end Schema

end SchemaDiagram
