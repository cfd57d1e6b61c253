import SchemaDiagram.Proofs.Indexes
import SchemaDiagram.Proofs.Search.Finding
import SchemaDiagram.Proofs.Tokens.Insertion

/-!
Statements that a string literal spells. The search does not know literals, so a literal leads to a
table or an index wherever it spells a statement that no earlier finding hides
(`statements_in_strings`).
-/

set_option autoImplicit false

namespace SchemaDiagram
open Sql Text Unicode

namespace Sql

/-- A literal between single quotes, with or without a letter in front. -/
def Token.IsString (t : Token) : Prop := t.kind = .literal ∧ t.text.getLast? = some '\''

/-- A place of the text without comments that belongs to a string literal. -/
def InString (sql : Text) (n : Nat) : Prop :=
  ∃ pre t post, Token.lex? sql = some (pre ++ t :: post) ∧ t.IsString ∧
    (Token.kept pre).length ≤ n ∧ n < (Token.kept pre).length + t.text.length

def StringsLack (w sql : Text) : Prop :=
  ∀ ts, Token.lex? sql = some ts → ∀ t ∈ ts, t.IsString → Lacks w t.text

section
variable {η α : Type} {kind : StatementKind η α} {sql : Text}

theorem not_inString_of_stringsLack (hlead : Leads "CREATE" kind.header?)
    (h : StringsLack "CREATE" sql) {f : Finding α} (hf : f ∈ kind.findings (stripComments sql)) :
    ¬ InString sql f.start := by
  rintro ⟨pre, t, post, hlex, ht, hle, hlt⟩
  have hkept : t.lexeme.kept = t.text := by
    obtain ⟨kind, text⟩ := t
    cases ht.1
    rfl
  have hstrip : stripComments sql = Token.kept pre ++ (t.text ++ Token.kept post) := by
    rw [stripComments_of_lex? hlex, Token.kept_append, Token.kept_cons, hkept]
  obtain ⟨hb, hread⟩ := StatementKind.header_of_findingAt?
    (StatementKind.mem_findings_iff.1 hf).1
  obtain ⟨k, hk⟩ := Nat.exists_eq_add_of_le hle
  have hlt : k < t.text.length := by omega
  obtain ⟨body, hbody⟩ := List.getLast?_eq_some_iff.1 ht.2
  have hgap : isWordChar '\'' = false := by decide +kernel
  have hlacks : Lacks "CREATE" body := by
    have hword := h _ hlex t (by simp) ht
    rw [hbody, lacks_append_cons hgap] at hword
    exact hword.1
  -- Nothing is read at any place of the literal, and so not at the place of the finding.
  have hsilent : Silent kind.header? (Token.kept post) (lastOf none (Token.kept pre))
      (t.text.take k ++ t.text.drop k) := by
    rw [List.take_append_drop, hbody]
    exact hlacks.silent_gap isCapital_create hlead hgap
  have hplace := (silent_append.1 hsilent).2
  rw [List.drop_eq_getElem_cons hlt] at hplace
  rw [hstrip, hk] at hb hread
  rw [List.take_length_add_append, List.take_append_of_le_length (Nat.le_of_lt hlt),
    lastOf_append] at hb
  rw [List.drop_length_add_append, List.drop_append_of_le_length (Nat.le_of_lt hlt),
    List.drop_eq_getElem_cons hlt] at hread
  exact hread (hplace.1 hb)

variable (kind sql)

/-- No statement comes from a header inside a string literal. -/
def StatementKind.SparesStrings : Prop :=
  ∀ f ∈ kind.findings (stripComments sql), f.occurrence.IsComplete → ¬ InString sql f.start

/-- Each statement that a string literal spells is hidden by an earlier finding. -/
def StatementKind.HidesStrings : Prop :=
  ∀ f, kind.findingAt? (stripComments sql) f.start = some f → f.occurrence.IsComplete →
    InString sql f.start → ∃ g ∈ kind.findings (stripComments sql), g.Hides f.start

theorem sparesStrings_iff : kind.SparesStrings sql ↔ kind.HidesStrings sql := by
  constructor
  · intro h f hat hcomplete hplace
    by_contra hnone
    have hmem : f ∈ kind.findings (stripComments sql) :=
      StatementKind.mem_findings_iff.2 ⟨hat, fun g hg hhides => hnone ⟨g, hg, hhides⟩⟩
    exact h f hmem hcomplete hplace
  · intro h f hf hcomplete hplace
    obtain ⟨hat, hhidden⟩ := StatementKind.mem_findings_iff.1 hf
    obtain ⟨g, hg, hhides⟩ := h f hat hcomplete hplace
    exact hhidden g hg hhides

end

end Sql

namespace Schema
variable {mode : Mode}

def Declares (mode : Mode) (s : TableStatement) (t : Table) : Prop :=
  ∃ record after, (readTable mode s).run record = .ok (t, after)

theorem ensures_declared (mode : Mode) (found : List (Occurrence TableStatement))
    (tables : List Table) :
    Ensures (readTables mode found tables) fun ts =>
      ∀ t ∈ ts, t ∈ tables ∨ ∃ s, .complete s ∈ found ∧ Declares mode s t := by
  induction found generalizing tables with
  | nil => exact Ensures.pure fun t ht => Or.inl ht
  | cons o rest ih =>
    have hlater : ∀ {t}, (∃ s, .complete s ∈ rest ∧ Declares mode s t) →
        ∃ s, .complete s ∈ o :: rest ∧ Declares mode s t := by
      rintro t ⟨s, hs, hread⟩
      exact ⟨s, List.mem_cons_of_mem o hs, hread⟩
    cases o with
    | unterminated header =>
      refine (Ensures.trivial _).bind fun _ _ => (ih tables).mono fun ts hts t ht => ?_
      exact (hts t ht).imp_right hlater
    | complete s =>
      have hread : Ensures (readTable mode s) (Declares mode s) :=
        fun record u after hrun => ⟨record, after, hrun⟩
      refine hread.bind fun u hu => (ih (put u tables)).mono fun ts hts t ht => ?_
      rcases hts t ht with hput | hrest
      · rcases mem_put hput with rfl | htables
        · exact Or.inr ⟨s, List.mem_cons_self, hu⟩
        · exact Or.inl htables
      · exact Or.inr (hlater hrest)

/-- A complete finding declares the table, whose keys are then marked, and each of its indexes is
that of a complete finding that names the table. -/
def FromFindings (mode : Mode) (sql : Text) (t : Table) : Prop :=
  (∃ f ∈ tableStatements.findings sql, ∃ s u, f.occurrence = .complete s ∧ Declares mode s u ∧
    { t with indexes := [] } = u.markKeys) ∧
  ∀ columns ∈ t.indexes, ∃ f ∈ indexStatements.findings sql, ∃ s, f.occurrence = .complete s ∧
    s.table = t.name ∧ s.columns = columns

theorem fromFindings_of_parse {mode : Mode} {sql : Text} {m : Schema}
    (h : parse mode sql = .ok m) : ∀ t ∈ m.tables, FromFindings mode (stripComments sql) t := by
  have htables : (tableStatements.findings (stripComments sql)).map (·.occurrence) =
      tableOccurrences (stripComments sql) :=
    StatementKind.map_occurrence_findings (fun hread => tableHeader?_paren hread) _
  have hindexes : (indexStatements.findings (stripComments sql)).map (·.occurrence) =
      indexOccurrences (stripComments sql) :=
    StatementKind.map_occurrence_findings (fun hread => indexHeader?_paren hread) _
  obtain ⟨tables, skipped, hread, hshown, -⟩ := exists_readTables_of_parse h
  intro t ht
  rw [hshown] at ht
  obtain ⟨u, hu, rfl⟩ := List.mem_map.1 ht
  obtain ⟨s, hs, hdeclares⟩ :=
    (ensures_declared mode _ [] [] tables skipped hread u hu).resolve_left List.not_mem_nil
  have hnone : u.markKeys.indexes = [] :=
    ensures_unindexed mode _ (by simp) [] tables skipped hread u hu
  rw [← htables] at hs
  obtain ⟨f, hf, hoccurrence⟩ := List.mem_map.1 hs
  refine ⟨⟨f, hf, s, u, hoccurrence, hdeclares, ?_⟩, fun columns hcolumns => ?_⟩
  · exact (congrArg (fun l => { u.markKeys with indexes := l }) hnone.symm :)
  · rw [Table.withIndexes, hnone, List.nil_append, mem_columnListsOn_iff] at hcolumns
    obtain ⟨s', hs', hnames⟩ := hcolumns
    rw [← hindexes] at hs'
    obtain ⟨f, hf, hoccurrence⟩ := List.mem_map.1 hs'
    exact ⟨f, hf, s', hoccurrence, hnames⟩

/-- Where the tables and indexes of a schema come from, as to string literals: a literal leads to
one exactly if it spells a statement that no earlier finding hides, and so never without the word
that such a statement begins with. -/
theorem statements_in_strings (sql : Text) :
    (∀ mode m, parse mode sql = .ok m →
      ∀ t ∈ m.tables, FromFindings mode (stripComments sql) t) ∧
    (tableStatements.SparesStrings sql ↔ tableStatements.HidesStrings sql) ∧
    (indexStatements.SparesStrings sql ↔ indexStatements.HidesStrings sql) ∧
    (StringsLack "CREATE" sql →
      tableStatements.SparesStrings sql ∧ indexStatements.SparesStrings sql) := by
  refine ⟨fun mode m => fromFindings_of_parse, sparesStrings_iff _ _, sparesStrings_iff _ _, ?_⟩
  intro hlack
  exact ⟨fun f hf _ => not_inString_of_stringsLack leads_tableHeader? hlack hf,
    fun f hf _ => not_inString_of_stringsLack leads_indexHeader? hlack hf⟩

/-- A comment on one table spells another one, and the default of a column an index. -/
theorem statements_of_strings :
    let comment : Text :=
      "CREATE TABLE a (id INT);\nCOMMENT ON TABLE a IS 'see CREATE TABLE b (id INT);';"
    let column : Text := "CREATE TABLE a (id TEXT DEFAULT 'CREATE INDEX ON a (id)');"
    (tableStatements.findings (stripComments comment) =
        [⟨0, 23, .complete ⟨"a", "id INT"⟩⟩, ⟨52, 75, .complete ⟨"b", "id INT"⟩⟩] ∧
      InString comment 52 ∧ ¬ tableStatements.SparesStrings comment ∧
      (parse .lenient comment).map (·.names) = .ok [("a" : Text), "b"]) ∧
    (indexStatements.findings (stripComments column) = [⟨33, 55, .complete ⟨none, "a", "id"⟩⟩] ∧
      InString column 33 ∧ ¬ indexStatements.SparesStrings column ∧
      (parse .lenient column).map (fun m => m.tables.flatMap (·.indexes)) =
        .ok [("id" : Text)]) := by
  intro comment column
  have htables : tableStatements.findings (stripComments comment) =
      [⟨0, 23, .complete ⟨"a", "id INT"⟩⟩, ⟨52, 75, .complete ⟨"b", "id INT"⟩⟩] := by
    decide +kernel
  have htable : InString comment 52 := by
    refine ⟨((Token.lex? comment).getD []).take 23, ⟨.literal, "'see CREATE TABLE b (id INT);'"⟩,
      [⟨.symbol, ";"⟩], by decide +kernel, ⟨rfl, by decide +kernel⟩, ?_, ?_⟩
    · decide +kernel
    · decide +kernel
  have hindexes : indexStatements.findings (stripComments column) =
      [⟨33, 55, .complete ⟨none, "a", "id"⟩⟩] := by
    decide +kernel
  have hindex : InString column 33 := by
    refine ⟨((Token.lex? column).getD []).take 13, ⟨.literal, "'CREATE INDEX ON a (id)'"⟩,
      [⟨.symbol, ")"⟩, ⟨.symbol, ";"⟩], by decide +kernel, ⟨rfl, by decide +kernel⟩, ?_, ?_⟩
    · decide +kernel
    · decide +kernel
  refine ⟨⟨htables, htable, fun h => ?_, by decide +kernel⟩, hindexes, hindex, fun h => ?_,
    by decide +kernel⟩
  · refine h ⟨52, 75, .complete ⟨"b", "id INT"⟩⟩ ?_ trivial htable
    rw [htables]
    exact List.mem_cons_of_mem _ List.mem_cons_self
  · refine h ⟨33, 55, .complete ⟨none, "a", "id"⟩⟩ ?_ trivial hindex
    rw [hindexes]
    exact List.mem_cons_self

end Schema

end SchemaDiagram
