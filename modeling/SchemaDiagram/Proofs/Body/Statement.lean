import SchemaDiagram.Proofs.Body.Fragment
import SchemaDiagram.Proofs.Body.Part
import SchemaDiagram.Proofs.Search.Strings

/-!
A table statement in a schema. The search finds it where its header stands, its list ends at its own
parenthesis whatever its parts hold, and the table that is read from its parts is the one the schema
has under that name, unless a later statement declares the name again (`table?_of_parse`).
-/

set_option autoImplicit false

namespace SchemaDiagram
open Sql Text Unicode

namespace Schema

variable {mode : Mode} {n : Text}

theorem ensures_onePass (mode : Mode) (s : TableStatement) :
    Ensures (readTable mode s) fun t => t = (onePass s.name (bodyFragments s.body)).table s.name := by
  intro record t after hrun
  have hresult := run_readTable mode s.name s.body record
  cases mode with
  | lenient =>
    rw [hrun] at hresult
    cases hresult
    rfl
  | strict =>
    rw [hrun, Mode.result, strictResult] at hresult
    split at hresult
    · cases hresult
      rfl
    · cases hresult

theorem ensures_kept (mode : Mode) {found : List (Occurrence TableStatement)}
    (h : ∀ s, .complete s ∈ found → s.name ≠ n) (tables : List Table) :
    Ensures (readTables mode found tables)
      fun ts => ts.find? (·.name = n) = tables.find? (·.name = n) := by
  induction found generalizing tables with
  | nil => exact Ensures.pure rfl
  | cons o rest ih =>
    have hrest := ih fun s hs => h s (List.mem_cons_of_mem o hs)
    cases o with
    | unterminated header => exact (Ensures.trivial _).bind fun _ _ => hrest tables
    | complete s =>
      refine (ensures_onePass mode s).bind fun t ht => (hrest (put t tables)).mono fun ts hts => ?_
      have hne : t.name ≠ n := ht ▸ h s List.mem_cons_self
      rw [hts, find?_put, if_neg hne]

theorem ensures_last (mode : Mode) (before : List (Occurrence TableStatement)) (s : TableStatement)
    {after : List (Occurrence TableStatement)} (h : ∀ u, .complete u ∈ after → u.name ≠ s.name)
    (tables : List Table) :
    Ensures (readTables mode (before ++ .complete s :: after) tables) fun ts =>
      ts.find? (·.name = s.name) = some ((onePass s.name (bodyFragments s.body)).table s.name) := by
  induction before generalizing tables with
  | nil =>
    refine (ensures_onePass mode s).bind fun t ht =>
      (ensures_kept mode h (put t tables)).mono fun ts hts => ?_
    have hname : t.name = s.name := congrArg Table.name ht
    rw [hts, find?_put, if_pos hname, ht]
  | cons o before ih =>
    cases o with
    | unterminated header => exact (Ensures.trivial _).bind fun _ _ => ih tables
    | complete u => exact (Ensures.trivial _).bind fun t _ => ih (put t tables)

end Schema

/-- A table statement and the text around it: what stands in front, the header, the parts of the body,
and what follows the parenthesis. -/
structure WrittenTable where
  before : Text
  header : Text
  written : Text
  parts : List Text
  rest : Text
  boundary : beginsWord (lastOf none before) = true
  isHeader : tableHeader? header = some (written, [])
  whole : ∀ p ∈ parts, Whole p
  ends : endsStatement rest = true

namespace WrittenTable
variable (d : WrittenTable)

def text : Text := d.before ++ (d.header ++ (join [','] d.parts ++ ')' :: d.rest))

def name : Text := normalizeName d.written

def statement : TableStatement := ⟨d.name, trim (join [','] d.parts)⟩

def fragments : List Text := collapsedParts d.parts

/-- The search comes to the statement, and no later one declares its name again. -/
structure Counts : Prop where
  shown : ∀ f ∈ tableStatements.findings d.text, ¬ f.Hides d.before.length
  last : ∀ f ∈ tableStatements.findings d.text, d.before.length < f.start →
    ∀ s, f.occurrence = .complete s → s.name ≠ d.name

theorem bodyFragments_statement : bodyFragments d.statement.body = d.fragments := by
  rw [statement, bodyFragments, collapse_trim]
  exact bodyFragments_join d.whole

theorem fragments_of_parts {front back : List Text} {o : Text} (hparts : d.parts = front ++ o :: back)
    (ho : collapse o ≠ []) :
    d.fragments = collapsedParts front ++ collapse o :: collapsedParts back := by
  rw [fragments, hparts, collapsedParts_append, collapsedParts_cons ho]

theorem exists_finding : ∃ f, tableStatements.findingAt? d.text d.before.length = some f ∧
    f.occurrence = .complete d.statement := by
  have hinside := balanced_join d.whole
  have hgroup := group?_of_quiet hinside.quiet hinside.exists_foldl d.rest
  have hlist : tableStatements.list? (join [','] d.parts ++ ')' :: d.rest) =
      some (join [','] d.parts, d.rest) := by
    rw [StatementKind.list?, hgroup, Option.filter_some]
    exact if_pos d.ends
  have hheader : tableStatements.headerAfter? (lastOf none (d.text.take d.before.length))
      (d.text.drop d.before.length) = some (d.written, join [','] d.parts ++ ')' :: d.rest) := by
    rw [StatementKind.headerAfter?, text, List.take_left, List.drop_left, if_pos d.boundary]
    exact tableHeader?_append d.isHeader _
  have hat : tableStatements.findingAt? d.text d.before.length =
      some ⟨d.before.length, d.text.length - d.rest.length, .complete d.statement⟩ := by
    rw [StatementKind.findingAt?, hheader]
    simp only [hlist]
    rfl
  exact ⟨_, hat, rfl⟩

variable {d} (hd : d.Counts)
include hd

theorem Counts.exists_occurrences : ∃ before after,
    tableOccurrences d.text = before ++ .complete d.statement :: after ∧
      ∀ s, .complete s ∈ after → s.name ≠ d.name := by
  obtain ⟨f, hat, hoccurrence⟩ := d.exists_finding
  have hstart := StatementKind.start_of_findingAt? hat
  have hmem : f ∈ tableStatements.findings d.text :=
    StatementKind.mem_findings_iff.2 ⟨hstart ▸ hat, hstart ▸ hd.shown⟩
  obtain ⟨before, after, hsplit⟩ := List.append_of_mem hmem
  have hpairwise : (before ++ f :: after).Pairwise fun f g => f.stop ≤ g.start :=
    hsplit ▸ StatementKind.pairwise_findingsFrom d.text 0
  have hoccurrences : (tableStatements.findings d.text).map (·.occurrence) = tableOccurrences d.text :=
    StatementKind.map_occurrence_findings (fun hread => tableHeader?_paren hread) d.text
  rw [hsplit, List.map_append, List.map_cons, hoccurrence] at hoccurrences
  refine ⟨_, _, hoccurrences.symm, ?_⟩
  intro s hs
  obtain ⟨g, hg, hgs⟩ := List.mem_map.1 hs
  have hbehind := (List.pairwise_cons.1 (List.pairwise_append.1 hpairwise).2.1).1 g hg
  have hstop := (StatementKind.stop_of_findingAt? hat).1
  exact hd.last g (by simp [hsplit, hg]) (by omega) s hgs

/-- The schema has the table that the fragments make, with its keys shown and its indexes. -/
theorem Counts.table?_of_parse {mode : Mode} {sql : Text} (hsql : stripComments sql = d.text)
    {m : Schema} (h : Schema.parse mode sql = .ok m) :
    m.table? d.name = some (((onePass d.name d.fragments).table d.name).markKeys.withIndexes
      (indexOccurrences d.text)) := by
  obtain ⟨tables, skipped, hread, htables, -⟩ := Schema.exists_readTables_of_parse h
  obtain ⟨before, after, hoccurrences, hlater⟩ := hd.exists_occurrences
  rw [hsql, hoccurrences] at hread
  have hfound := Schema.ensures_last mode before d.statement hlater [] [] tables skipped hread
  have hname : d.statement.name = d.name := rfl
  have hsame : ((fun t : Table => decide (t.name = d.name)) ∘ fun t : Table =>
      t.markKeys.withIndexes (indexOccurrences d.text)) = fun t => decide (t.name = d.name) := rfl
  rw [d.bodyFragments_statement, hname] at hfound
  rw [Schema.table?, htables, hsql, List.find?_map, hsame, hfound]
  rfl

end WrittenTable

end SchemaDiagram
