import SchemaDiagram.Proofs.Script.Table

set_option autoImplicit false

namespace SchemaDiagram.Script
open Sql Unicode Text

namespace TableLines

def afterOpen (t : TableLines) (rest : Text) : Text :=
  bodyText t.fragments ++ ')' :: ';' :: '\n' :: rest

theorem text_append (t : TableLines) (rest : Text) :
    t.text ++ rest = "CREATE" ++ ' ' :: ("TABLE" ++ ' ' :: (t.name.text ++
      ' ' :: '(' :: t.afterOpen rest)) := by
  have hprinted : t.text = "CREATE" ++ ' ' :: ("TABLE" ++ ' ' :: (t.name.text ++
      ' ' :: '(' :: (bodyText t.fragments ++ [')', ';', '\n']))) := rfl
  simp only [hprinted, afterOpen, List.append_assoc, List.cons_append, List.nil_append]

theorem tableHeader?_text (t : TableLines) (rest : Text) :
    tableHeader? (t.text ++ rest) = some (t.name.text, t.afterOpen rest) := by
  have hends : endsWord (' ' :: '(' :: t.afterOpen rest) = true := by simp [endsWord]
  have hcreate : ∀ s : Text, clause? ["CREATE"] ("CREATE" ++ ' ' :: ("TABLE" ++ s)) =
      some ("TABLE" ++ s) := fun _ => rfl
  have hscope : ∀ s : Text, optional (firstOf [clause? ["GLOBAL"], clause? ["LOCAL"]])
      ("TABLE" ++ s) = "TABLE" ++ s := fun _ => rfl
  have hlifetime : ∀ s : Text,
      optional (firstOf [clause? ["TEMP"], clause? ["TEMPORARY"], clause? ["UNLOGGED"]])
        ("TABLE" ++ s) = "TABLE" ++ s := fun _ => rfl
  have htable := t.name.plain.clause? "TABLE" (' ' :: '(' :: t.afterOpen rest)
  have hif := t.name.clause? (w := "IF") (by decide) (by decide) ["NOT", "EXISTS"] hends
  have hpoint : secondPart? (' ' :: '(' :: t.afterOpen rest) = none := rfl
  have hname := t.name.qualifiedName? (c := ' ') (by decide) hpoint
  have hopen : mark? '(' (skipBlanks (' ' :: '(' :: t.afterOpen rest)) = some (t.afterOpen rest) :=
    rfl
  have hoptional : optional (clause? ["IF", "NOT", "EXISTS"])
      (t.name.text ++ ' ' :: '(' :: t.afterOpen rest) =
        t.name.text ++ ' ' :: '(' :: t.afterOpen rest := by
    rw [Sql.optional, hif]
    rfl
  rw [text_append]
  unfold tableHeader?
  rw [hcreate]
  simp only [Option.bind_eq_bind, Option.bind_some]
  rw [hscope, hlifetime, htable]
  simp only [Option.bind_some]
  rw [hoptional, hname]
  simp only [Option.bind_some]
  rw [hopen]
  rfl

theorem list?_text (t : TableLines) (rest : Text) :
    tableStatements.list? (t.afterOpen rest) =
      some (bodyText t.fragments, ';' :: '\n' :: rest) := by
  have hlevel : ∀ p ∈ t.fragments.map Fragment.text, Level p := by
    intro p hp
    obtain ⟨f, -, rfl⟩ := List.mem_map.1 hp
    exact f.level
  obtain ⟨hquiet, hback⟩ := quiet_closes_join hlevel .gap
  have hgroup := group?_of_quiet hquiet hback (';' :: '\n' :: rest)
  have hends : endsStatement (';' :: '\n' :: rest) = true := rfl
  have hbody : group? (t.afterOpen rest) = some (bodyText t.fragments, ';' :: '\n' :: rest) :=
    hgroup
  rw [StatementKind.list?, hbody]
  simp [tableStatements, hends]

end TableLines

namespace IndexLine

def afterOpen (i : IndexLine) (rest : Text) : Text :=
  listText i.columns ++ ')' :: ';' :: '\n' :: rest

theorem text_append (i : IndexLine) (rest : Text) :
    i.text ++ rest = "CREATE" ++ ' ' :: ("INDEX" ++ ' ' :: (i.name.text ++ ' ' :: ("ON" ++
      ' ' :: (i.table.text ++ ' ' :: '(' :: i.afterOpen rest)))) := by
  have hprinted : i.text = "CREATE" ++ ' ' :: ("INDEX" ++ ' ' :: (i.name.text ++ ' ' :: ("ON" ++
      ' ' :: (i.table.text ++ ' ' :: '(' :: (listText i.columns ++ [')', ';', '\n']))))) := rfl
  simp only [hprinted, afterOpen, List.append_assoc, List.cons_append, List.nil_append]

theorem onTable?_text (i : IndexLine) (rest : Text) :
    onTable? ("ON" ++ ' ' :: (i.table.text ++ ' ' :: '(' :: i.afterOpen rest)) =
      some (i.table.text, i.afterOpen rest) := by
  have hends : endsWord (' ' :: '(' :: i.afterOpen rest) = true := by simp [endsWord]
  have hon := i.table.plain.clause? "ON" (' ' :: '(' :: i.afterOpen rest)
  have honly := i.table.clause? (w := "ONLY") (by decide) (by decide) [] hends
  have hpoint : secondPart? (' ' :: '(' :: i.afterOpen rest) = none := rfl
  have hname := i.table.qualifiedName? (c := ' ') (by decide) hpoint
  have hlist : indexList? (' ' :: '(' :: i.afterOpen rest) = some (i.afterOpen rest) := rfl
  have htarget : indexTarget? (i.table.text ++ ' ' :: '(' :: i.afterOpen rest) =
      some (i.table.text, i.afterOpen rest) := by
    simp [indexTarget?, hname, hlist, QualifiedName.text]
  unfold onTable?
  rw [hon]
  simp only [Option.bind_eq_bind, Option.bind_some]
  rw [honly, htarget]
  rfl

theorem indexHeader?_text (i : IndexLine) (rest : Text) :
    indexHeader? (i.text ++ rest) = some (⟨some i.name.text, i.table.text⟩, i.afterOpen rest) := by
  generalize hs : "ON" ++ ' ' :: (i.table.text ++ ' ' :: '(' :: i.afterOpen rest) = s
  have hon := i.onTable?_text rest
  rw [hs] at hon
  have hends : endsWord (' ' :: s) = true := by simp [endsWord]
  have hcreate : clause? ["CREATE", "INDEX"] ("CREATE" ++ ' ' :: ("INDEX" ++
      ' ' :: (i.name.text ++ ' ' :: s))) = some (i.name.text ++ ' ' :: s) := by
    have hfirst : clause? ["CREATE", "INDEX"] ("CREATE" ++ ' ' :: ("INDEX" ++
        ' ' :: (i.name.text ++ ' ' :: s))) =
          clause? ["INDEX"] ("INDEX" ++ ' ' :: (i.name.text ++ ' ' :: s)) := rfl
    rw [hfirst, i.name.plain.clause?]
  have hconcurrently := i.name.clause? (w := "CONCURRENTLY") (by decide) (by decide) [] hends
  have hif := i.name.clause? (w := "IF") (by decide) (by decide) ["NOT", "EXISTS"] hends
  have hname := i.name.name? (c := ' ') (by decide) s
  have hblanks : blanks? (' ' :: s) = some s := by
    rw [← hs]
    rfl
  rw [text_append, hs]
  unfold indexHeader?
  rw [hcreate]
  simp only [Option.bind_eq_bind, Option.bind_some]
  have hfirst : optional (clause? ["CONCURRENTLY"]) (i.name.text ++ ' ' :: s) =
      i.name.text ++ ' ' :: s := by
    rw [Sql.optional, hconcurrently]
    rfl
  have hsecond : optional (clause? ["IF", "NOT", "EXISTS"]) (i.name.text ++ ' ' :: s) =
      i.name.text ++ ' ' :: s := by
    rw [Sql.optional, hif]
    rfl
  rw [hfirst, hsecond, hname]
  simp only [Option.bind_some]
  rw [hblanks]
  simp only [Option.bind_some]
  rw [hon]
  rfl

theorem list?_text (i : IndexLine) (rest : Text) :
    indexStatements.list? (i.afterOpen rest) =
      some (listText i.columns, ';' :: '\n' :: rest) := by
  have hgroup : group? (i.afterOpen rest) = some (listText i.columns, ';' :: '\n' :: rest) :=
    group?_of_flat (flat_listText i.columns) (';' :: '\n' :: rest)
  rw [StatementKind.list?, hgroup]
  rfl

end IndexLine

theorem occurrencesAfter_end {η α : Type} {kind : StatementKind η α}
    (hkind : Leads "CREATE" kind.header?) (rest : Text) :
    kind.occurrencesAfter (some ')') (';' :: '\n' :: rest) =
      kind.occurrencesAfter (some '\n') rest := by
  have hlacks : Lacks "CREATE" [';'] := by decide
  have hsilent : Silent kind.header? rest (some ')') ([';'] ++ ['\n']) :=
    hlacks.silent_gap isCapital_create hkind isWordChar_break
  exact kind.occurrencesAfter_silent hsilent

theorem silent_statement {β : Type} {read : Text → Option β} (hread : Leads "CREATE" read)
    {s rest : Text} (hs : Lacks "CREATE" s)
    (hnone : read ("CREATE" ++ ' ' :: (s ++ '\n' :: rest)) = none) (before : Option Char) :
    Silent read rest before ("CREATE" ++ ' ' :: (s ++ ['\n'])) ∧
      lastOf before ("CREATE" ++ ' ' :: (s ++ ['\n'])) = some '\n' := by
  -- A statement can begin at its first word only, and there the reader fails.
  have hword : ∀ c ∈ ("CREATE" : Text), isWordChar c = true := by decide
  have hlacks : Lacks "CREATE" (' ' :: s) := (lacks_cons isCapital_create isWordChar_space).2 hs
  have hrest : Silent read rest (lastOf before "CREATE") (' ' :: s ++ ['\n']) :=
    hlacks.silent_gap isCapital_create hread isWordChar_break
  have htext : ' ' :: (s ++ ['\n']) ++ rest = ' ' :: (s ++ '\n' :: rest) := by simp
  refine ⟨silent_append.2 ⟨silent_of_word hword ?_, hrest⟩, ?_⟩
  · intro _
    rw [htext]
    exact hnone
  · have hlast := lastOf_append (lastOf before "CREATE") (' ' :: s) ['\n']
    rw [lastOf_append]
    exact hlast

namespace TableLines

def statement (t : TableLines) : TableStatement := ⟨t.name.text, bodyText t.fragments⟩

theorem occurrencesAfter_text (t : TableLines) {before : Option Char}
    (hb : beginsWord before = true) (rest : Text) :
    tableStatements.occurrencesAfter before (t.text ++ rest) =
      .complete t.statement :: tableStatements.occurrencesAfter (some '\n') rest := by
  have hcontent : tableStatements.content t.name.text (bodyText t.fragments) = t.statement := by
    simp [tableStatements, statement, normalizeName_of_plain t.name.plain, trim_bodyText]
  rw [tableStatements.occurrencesAfter_of_header hb (t.tableHeader?_text rest) (t.list?_text rest),
    hcontent, occurrencesAfter_end leads_tableHeader?]

theorem lacks_body (t : TableLines) : Lacks "CREATE" (bodyText t.fragments) := by
  cases h : t.fragments with
  | nil => exact lacks_nil isCapital_create
  | cons f fs => exact (clean_bodyText (List.cons_ne_nil f fs)).noCreate

theorem silent_text (t : TableLines) (before : Option Char) (rest : Text) :
    Silent indexHeader? rest before t.text ∧ lastOf before t.text = some '\n' := by
  have hopen : isWordChar '(' = false := isWordChar_mark (by decide)
  have hclose : isWordChar ')' = false := isWordChar_mark (by decide)
  have htable : Lacks "CREATE" "TABLE" ∧ Lacks "CREATE" [';'] := by decide
  have hs : Lacks "CREATE" ("TABLE" ++ ' ' :: (t.name.text ++ ' ' :: '(' ::
      (bodyText t.fragments ++ ')' :: [';']))) := by
    simp only [lacks_append_cons isWordChar_space, lacks_cons isCapital_create hopen,
      lacks_append_cons hclose]
    exact ⟨htable.1, (Name.clean t.name).noCreate, t.lacks_body, htable.2⟩
  have hprinted : t.text = "CREATE" ++ ' ' :: ("TABLE" ++ ' ' :: (t.name.text ++ ' ' :: '(' ::
      (bodyText t.fragments ++ ')' :: [';'])) ++ ['\n']) := by
    have htext := t.text_append []
    rw [List.append_nil] at htext
    rw [htext]
    simp only [afterOpen, List.append_assoc, List.cons_append, List.nil_append]
  rw [hprinted]
  exact silent_statement leads_indexHeader? hs rfl before

end TableLines

namespace IndexLine

def statement (i : IndexLine) : IndexStatement :=
  ⟨some i.name.text, i.table.text, listText i.columns⟩

theorem collapse_listText (names : List Name) : collapse (listText names) = listText names := by
  cases names with
  | nil => rfl
  | cons n ns => exact collapse_of_tidy (clean_listText (List.cons_ne_nil n ns)).tidy.tidyFrom

theorem occurrencesAfter_text (i : IndexLine) {before : Option Char}
    (hb : beginsWord before = true) (rest : Text) :
    indexStatements.occurrencesAfter before (i.text ++ rest) =
      .complete i.statement :: indexStatements.occurrencesAfter (some '\n') rest := by
  have hcontent : indexStatements.content ⟨some i.name.text, i.table.text⟩ (listText i.columns) =
      i.statement := by
    simp [indexStatements, statement, normalizeName_of_plain i.name.plain,
      normalizeName_of_plain i.table.plain, collapse_listText]
  rw [indexStatements.occurrencesAfter_of_header hb (i.indexHeader?_text rest) (i.list?_text rest),
    hcontent, occurrencesAfter_end leads_indexHeader?]

theorem lacks_list (names : List Name) : Lacks "CREATE" (listText names) := by
  cases names with
  | nil => exact lacks_nil isCapital_create
  | cons n ns => exact (clean_listText (List.cons_ne_nil n ns)).noCreate

theorem silent_text (i : IndexLine) (before : Option Char) (rest : Text) :
    Silent tableHeader? rest before i.text ∧ lastOf before i.text = some '\n' := by
  have hopen : isWordChar '(' = false := isWordChar_mark (by decide)
  have hclose : isWordChar ')' = false := isWordChar_mark (by decide)
  have hwords : Lacks "CREATE" "INDEX" ∧ Lacks "CREATE" "ON" ∧ Lacks "CREATE" [';'] := by
    decide
  have hs : Lacks "CREATE" ("INDEX" ++ ' ' :: (i.name.text ++ ' ' :: ("ON" ++ ' ' ::
      (i.table.text ++ ' ' :: '(' :: (listText i.columns ++ ')' :: [';']))))) := by
    simp only [lacks_append_cons isWordChar_space, lacks_cons isCapital_create hopen,
      lacks_append_cons hclose]
    exact ⟨hwords.1, (Name.clean i.name).noCreate, hwords.2.1, (Name.clean i.table).noCreate,
      lacks_list i.columns, hwords.2.2⟩
  have hprinted : i.text = "CREATE" ++ ' ' :: ("INDEX" ++ ' ' :: (i.name.text ++ ' ' :: ("ON" ++
      ' ' :: (i.table.text ++ ' ' :: '(' :: (listText i.columns ++ ')' :: [';'])))) ++ ['\n']) := by
    have htext := i.text_append []
    rw [List.append_nil] at htext
    rw [htext]
    simp only [afterOpen, List.append_assoc, List.cons_append, List.nil_append]
  rw [hprinted]
  exact silent_statement leads_tableHeader? hs rfl before

end IndexLine

theorem tableOccurrences_text (s : Script) :
    tableOccurrences s.text = s.tables.map fun t => .complete t.statement := by
  have hstart : beginsWord none = true := rfl
  obtain ⟨after, hafter, htables⟩ := tableStatements.occurrencesAfter_flatMap isWordChar_break
    (fun (t : TableLines) (_ : t ∈ s.tables) _ rest hb => t.occurrencesAfter_text hb rest) hstart
    (s.indexes.flatMap IndexLine.text)
  obtain ⟨last, -, hindexes⟩ := tableStatements.occurrencesAfter_flatMap_silent isWordChar_break
    (fun (i : IndexLine) (_ : i ∈ s.indexes) before rest => i.silent_text before rest) hafter []
  rw [List.append_nil] at hindexes
  rw [tableOccurrences, StatementKind.occurrences, Script.text, htables, hindexes,
    StatementKind.occurrencesAfter, List.append_nil]

theorem indexOccurrences_text (s : Script) :
    indexOccurrences s.text = s.indexes.map fun i => .complete i.statement := by
  have hstart : beginsWord none = true := rfl
  obtain ⟨after, hafter, htables⟩ := indexStatements.occurrencesAfter_flatMap_silent
    isWordChar_break (fun (t : TableLines) (_ : t ∈ s.tables) before rest => t.silent_text before rest) hstart
    (s.indexes.flatMap IndexLine.text)
  obtain ⟨last, -, hindexes⟩ := indexStatements.occurrencesAfter_flatMap isWordChar_break
    (fun (i : IndexLine) (_ : i ∈ s.indexes) _ rest hb => i.occurrencesAfter_text hb rest) hafter []
  rw [List.append_nil] at hindexes
  rw [indexOccurrences, StatementKind.occurrences, Script.text, htables, hindexes,
    StatementKind.occurrencesAfter, List.append_nil]

theorem uncommented_flatMap {α : Type} {text : α → Text} {l : List α}
    (h : ∀ a ∈ l, Uncommented (text a)) : Uncommented (l.flatMap text) := by
  induction l with
  | nil => exact uncommented_of_ne nofun
  | cons a l ih =>
    exact (h a List.mem_cons_self).append (ih fun b hb => h b (List.mem_cons_of_mem a hb))

theorem TableLines.uncommented (t : TableLines) : Uncommented t.text := by
  have hcreate : Uncommented "CREATE TABLE " := uncommented_of_ne (by decide)
  have hopen : Uncommented " (" := uncommented_of_ne (by decide)
  have hclose : Uncommented ");\n" := uncommented_of_ne (by decide)
  have hbody : Uncommented (bodyText t.fragments) := by
    cases t.fragments with
    | nil => exact uncommented_of_ne nofun
    | cons f fs => exact (clean_bodyText (List.cons_ne_nil f fs)).uncommented
  exact hcreate.append ((Name.clean t.name).uncommented.append
    (hopen.append (hbody.append hclose)))

theorem IndexLine.uncommented (i : IndexLine) : Uncommented i.text := by
  have hcreate : Uncommented "CREATE INDEX " := uncommented_of_ne (by decide)
  have hon : Uncommented " ON " := uncommented_of_ne (by decide)
  have hopen : Uncommented " (" := uncommented_of_ne (by decide)
  have hclose : Uncommented ");\n" := uncommented_of_ne (by decide)
  have hlist : Uncommented (listText i.columns) := by
    cases i.columns with
    | nil => exact uncommented_of_ne nofun
    | cons n ns => exact (clean_listText (List.cons_ne_nil n ns)).uncommented
  exact hcreate.append ((Name.clean i.name).uncommented.append (hon.append
    ((Name.clean i.table).uncommented.append (hopen.append (hlist.append hclose)))))

theorem stripComments_text (s : Script) : stripComments s.text = s.text := by
  have huncommented : Uncommented s.text :=
    (uncommented_flatMap fun t _ => TableLines.uncommented t).append
      (uncommented_flatMap fun i _ => IndexLine.uncommented i)
  rw [stripComments, stripCommentsBy, huncommented.line.1, huncommented.block.1]
  rfl

end SchemaDiagram.Script
