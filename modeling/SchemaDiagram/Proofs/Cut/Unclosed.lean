import SchemaDiagram.Proofs.Cut.Statement
import SchemaDiagram.Proofs.Script.Word
import SchemaDiagram.Schema.Reading

/-!
A table whose list never closes. The scan for its closing parenthesis runs to the end of the text,
since whole statements behind it leave it as deep inside the list as it was; the search then goes on
behind the header alone and finds those statements (`tableOccurrences_unclosed`).
-/

set_option autoImplicit false

namespace SchemaDiagram.Sql
open Text Unicode

/-- Behind an opening parenthesis: the group is never closed, and every quote is. -/
structure LeavesOpen (s : Text) : Prop where
  quiet : Quiet Nesting.step Nesting.closes .opened s
  closed : (Quoting.start.after s).isOpen = false

/-- The inside of a group: its parentheses match, and every quote is closed. -/
structure Balanced (s : Text) : Prop extends LeavesOpen s where
  depth : (s.foldl Nesting.step .opened).depth = 1

structure BareTable where
  name : Text
  body : Text
  bare : bareName? name = some (name, [])
  balanced : Balanced body

namespace BareTable

def text (t : BareTable) : Text :=
  "CREATE" ++ ' ' :: ("TABLE" ++ ' ' :: (t.name ++ ' ' :: '(' :: (t.body ++ [')', ';'])))

def statement (t : BareTable) : TableStatement := ⟨t.name, trim t.body⟩

end BareTable

def linesText (ts : List BareTable) : Text := join ['\n'] (ts.map BareTable.text)

namespace Nesting

theorem step_deeper {n : Nesting} {c : Char} (hdepth : 1 ≤ n.depth) (hc : n.closes c = false)
    (k : Nat) :
    1 ≤ (n.step c).depth ∧
      step ⟨n.quoting, k + n.depth⟩ c = ⟨(n.step c).quoting, k + (n.step c).depth⟩ := by
  simp only [step]
  split
  · exact ⟨hdepth, rfl⟩
  rename_i hcovers
  split
  · exact ⟨Nat.le_add_left 1 _, rfl⟩
  split
  · rename_i hclose
    subst hclose
    have hdeep : n.depth ≠ 1 := by simpa [closes, hcovers] using hc
    exact ⟨by omega, by rw [Nat.add_sub_assoc hdepth]⟩
  · exact ⟨hdepth, rfl⟩

/-- A text that leaves its list open is passed in the same way further inside. -/
theorem foldl_deeper {n : Nesting} {s : Text} (hs : Quiet step closes n s) (hdepth : 1 ≤ n.depth)
    (k : Nat) :
    1 ≤ (s.foldl step n).depth ∧ s.foldl step ⟨n.quoting, k + n.depth⟩ =
      ⟨(s.foldl step n).quoting, k + (s.foldl step n).depth⟩ := by
  induction s generalizing n with
  | nil => exact ⟨hdepth, rfl⟩
  | cons c s ih =>
    obtain ⟨hnext, hstep⟩ := step_deeper hdepth hs.1 k
    rw [List.foldl_cons, List.foldl_cons, hstep]
    exact ih hs.2 hnext

theorem closes_of_deep {q : Quoting} {d : Nat} (hd : d ≠ 1) (c : Char) :
    closes ⟨q, d⟩ c = false := by
  simp [closes, hd]

theorem quiet_deeper {n : Nesting} {s : Text} (hs : Quiet step closes n s) (hdepth : 1 ≤ n.depth)
    {k : Nat} (hk : 1 ≤ k) : Quiet step closes ⟨n.quoting, k + n.depth⟩ s := by
  induction s generalizing n with
  | nil => trivial
  | cons c s ih =>
    obtain ⟨hnext, hstep⟩ := step_deeper hdepth hs.1 k
    refine ⟨closes_of_deep (by omega) c, ?_⟩
    rw [hstep]
    exact ih hs.2 hnext

end Nesting

/-- Passed anywhere inside a list, which it neither closes nor leaves deeper. -/
structure Passed (s : Text) : Prop where
  quiet : ∀ b d, 1 ≤ d → Quiet Nesting.step Nesting.closes ⟨.outside b, d⟩ s
  back : ∀ b d, 1 ≤ d → ∃ b', s.foldl Nesting.step ⟨.outside b, d⟩ = ⟨.outside b', d⟩

theorem passed_of_flat {s : Text} (hs : Flat s) : Passed s where
  quiet b d _ := by
    refine hs.quiet ?_ b
    intro c hc b
    simp [Nesting.closes, (hs c hc).2.2]
  back b d _ := hs.foldl b d

theorem Passed.append {s t : Text} (hs : Passed s) (ht : Passed t) : Passed (s ++ t) where
  quiet b d hd := by
    obtain ⟨b', hb'⟩ := hs.back b d hd
    rw [quiet_append, hb']
    exact ⟨hs.quiet b d hd, ht.quiet b' d hd⟩
  back b d hd := by
    obtain ⟨b', hb'⟩ := hs.back b d hd
    rw [List.foldl_append, hb']
    exact ht.back b' d hd

theorem LeavesOpen.exists_foldl {s : Text} (hs : LeavesOpen s) :
    ∃ b d, 1 ≤ d ∧ s.foldl Nesting.step .opened = ⟨.outside b, d⟩ := by
  have hquoting := Nesting.quoting_foldl s .opened
  have hclosed : (s.foldl Nesting.step .opened).quoting.isOpen = false := hquoting ▸ hs.closed
  have hdepth := (Nesting.foldl_deeper hs.quiet (Nat.le_refl 1) 0).1
  generalize s.foldl Nesting.step .opened = n at hclosed hdepth
  obtain ⟨q, d⟩ := n
  cases q with
  | outside b => exact ⟨b, d, hdepth, rfl⟩
  | plain c => cases hclosed
  | escape => cases hclosed
  | escaped => cases hclosed

theorem Balanced.exists_foldl {s : Text} (hs : Balanced s) :
    ∃ b, s.foldl Nesting.step .opened = ⟨.outside b, 1⟩ := by
  obtain ⟨b, d, -, hfoldl⟩ := hs.toLeavesOpen.exists_foldl
  have hdepth := hs.depth
  rw [hfoldl] at hdepth
  exact ⟨b, by rw [hfoldl, ← hdepth]⟩

theorem Balanced.passed {s : Text} (hs : Balanced s) : Passed ('(' :: (s ++ [')'])) := by
  obtain ⟨b', hfoldl⟩ := hs.exists_foldl
  have hopen : ∀ b d, Nesting.step ⟨.outside b, d⟩ '(' = ⟨Nesting.opened.quoting, d + 1⟩ := by
    intro b d
    rw [Nesting.step_outside (c := '(') (by decide)]
    rfl
  have hinside : ∀ d, s.foldl Nesting.step ⟨Nesting.opened.quoting, d + 1⟩ = ⟨.outside b', d + 1⟩ := by
    intro d
    have hdeeper := (Nesting.foldl_deeper hs.quiet (Nat.le_refl 1) d).2
    rw [hfoldl] at hdeeper
    exact hdeeper
  have hclose : ∀ d, Nesting.step ⟨.outside b', d + 1⟩ ')' =
      ⟨.outside (Quoting.Before.next b' ')'), d⟩ := by
    intro d
    rw [Nesting.step_outside (c := ')') (by decide)]
    rfl
  refine ⟨?_, ?_⟩
  · intro b d hd
    refine ⟨by simp [Nesting.closes], ?_⟩
    rw [hopen, quiet_append, hinside]
    exact ⟨Nesting.quiet_deeper hs.quiet (Nat.le_refl 1) hd,
      Nesting.closes_of_deep (by omega) ')', trivial⟩
  · intro b d _
    refine ⟨Quoting.Before.next b' ')', ?_⟩
    rw [List.foldl_cons, hopen, List.foldl_append, hinside, List.foldl_cons, hclose]
    rfl

theorem isBare_of_bareName? {n : Text} (h : bareName? n = some (n, [])) :
    ∃ c r, n = c :: r ∧ isNameStart c = true ∧ IsBare n := by
  cases n with
  | nil => cases h
  | cons c r =>
    simp only [bareName?] at h
    split at h
    · rename_i hc
      simp only [Option.some.injEq, Prod.mk.injEq, List.cons.injEq, true_and] at h
      refine ⟨c, r, rfl, hc, List.forall_mem_cons.2 ⟨by simp [isNamePart, hc], ?_⟩⟩
      exact List.takeWhile_eq_self_iff.1 h.1
    · cases h

theorem flat_of_isBare {n : Text} (hn : IsBare n) : Flat n := by
  intro c hc
  have hquote := hn.ne (c := '\'') (by decide +kernel) c hc
  have hdouble := hn.ne (c := '"') (by decide +kernel) c hc
  refine ⟨by simp [Quoting.isQuote, hquote, hdouble], ?_, ?_⟩
  · exact hn.ne (by decide +kernel) c hc
  · exact hn.ne (by decide +kernel) c hc

theorem normalizeName_of_isBare {n : Text} (hn : IsBare n) (hne : n ≠ []) : normalizeName n = n := by
  have hpoint := hn.ne (c := '.') (by decide +kernel)
  have hquote := hn.ne (c := '"') (by decide +kernel)
  exact Script.normalizeName_of_trim hpoint (trim_of_tidy (tidy_of_solid hne hn.solid).tidyFrom) hquote

theorem clause?_of_isBare {w v n : Text} (hw : ∀ k ∈ w, k.isUpper = true) (hv : IsCapital v)
    (hn : IsBare n) (ws : List Text) (rest : Text) :
    clause? (w :: v :: ws) (n ++ ' ' :: '(' :: rest) = none := by
  have hends : endsWord (' ' :: '(' :: rest) = true := by simp [endsWord]
  rw [clause?, keyword?_append hw hends]
  cases hread : keyword? w n with
  | none => rfl
  | some r =>
    cases r with
    | nil =>
      -- The name is the word, but a parenthesis follows where the next word should.
      have hopen : keyword? v ('(' :: rest) = none := by
        obtain ⟨k, v, rfl⟩ := List.exists_cons_of_ne_nil hv.1
        have hk := spells_of_not_isWordChar (hv.2 k List.mem_cons_self) (c := '(') (by decide +kernel)
        simp [keyword?, hk]
      have hblanks : blanks? (' ' :: '(' :: rest) = some ('(' :: rest) := rfl
      simp only [Option.bind_eq_bind, Option.map_some, Option.bind_some, List.nil_append, hblanks,
        clause?, hopen, Option.bind_none]
    | cons c r =>
      have hc := hn.solid c ((keyword?_suffix hread).1.mem List.mem_cons_self)
      simp [blanks?, hc]

namespace BareTable
variable (t : BareTable)

theorem isBare : IsBare t.name := by
  obtain ⟨c, r, -, -, hbare⟩ := isBare_of_bareName? t.bare
  exact hbare

theorem text_append (rest : Text) :
    t.text ++ rest = "CREATE" ++ ' ' :: ("TABLE" ++ ' ' :: (t.name ++
      ' ' :: '(' :: (t.body ++ ')' :: ';' :: rest))) := by
  unfold text
  simp only [List.append_assoc, List.cons_append, List.nil_append]

theorem passed : Passed t.text := by
  have hcreate : Flat ("CREATE" ++ ' ' :: ("TABLE" ++ [' '])) := by decide
  have hspace : Flat [' '] := by decide
  have hend : Flat [';'] := by decide
  have htext : t.text = ("CREATE" ++ ' ' :: ("TABLE" ++ [' '])) ++ (t.name ++ ([' '] ++
      ('(' :: (t.body ++ [')']) ++ [';']))) := by
    unfold text
    simp only [List.append_assoc, List.cons_append, List.nil_append]
  rw [htext]
  exact (passed_of_flat hcreate).append ((passed_of_flat (flat_of_isBare t.isBare)).append
    ((passed_of_flat hspace).append (t.balanced.passed.append (passed_of_flat hend))))

theorem qualifiedName?_name (rest : Text) :
    qualifiedName? (t.name ++ ' ' :: '(' :: rest) = some (⟨[], t.name⟩, ' ' :: '(' :: rest) := by
  obtain ⟨c, r, hname, hstart, hbare⟩ := isBare_of_bareName? t.bare
  rw [hname] at hbare ⊢
  obtain ⟨-, hr⟩ := List.forall_mem_cons.1 hbare
  have hspace : ¬ isNamePart ' ' = true := by decide +kernel
  have hquoted := quotedName?_eq_none (hbare.ne (c := '"') (by decide +kernel) c List.mem_cons_self)
  have htake : (r ++ ' ' :: '(' :: rest).takeWhile isNamePart = r := by
    rw [List.takeWhile_append_of_pos hr, List.takeWhile_cons_of_neg hspace, List.append_nil]
  have hdrop : (r ++ ' ' :: '(' :: rest).dropWhile isNamePart = ' ' :: '(' :: rest := by
    rw [List.dropWhile_append_of_pos hr, List.dropWhile_cons_of_neg hspace]
  have hread : name? (c :: r ++ ' ' :: '(' :: rest) = some (c :: r, ' ' :: '(' :: rest) := by
    rw [List.cons_append, name?, hquoted, bareName?, if_pos hstart, htake, hdrop]
    rfl
  have hpoint : secondPart? (' ' :: '(' :: rest) = none := rfl
  rw [qualifiedName?, hread]
  simp only [Option.bind_eq_bind, Option.bind_some, hpoint]
  rfl

theorem tableHeader?_text (rest : Text) :
    tableHeader? (t.text ++ rest) = some (t.name, t.body ++ ')' :: ';' :: rest) := by
  generalize hafter : t.body ++ ')' :: ';' :: rest = afterOpen
  have hcreate : ∀ s : Text, clause? ["CREATE"] ("CREATE" ++ ' ' :: ("TABLE" ++ s)) =
      some ("TABLE" ++ s) := fun _ => rfl
  have hscope : ∀ s : Text, optional (firstOf [clause? ["GLOBAL"], clause? ["LOCAL"]])
      ("TABLE" ++ s) = "TABLE" ++ s := fun _ => rfl
  have hlifetime : ∀ s : Text,
      optional (firstOf [clause? ["TEMP"], clause? ["TEMPORARY"], clause? ["UNLOGGED"]])
        ("TABLE" ++ s) = "TABLE" ++ s := fun _ => rfl
  have htable : ∀ s : Text, clause? ["TABLE"] ("TABLE" ++ ' ' :: (t.name ++ s)) =
      some (t.name ++ s) := by
    intro s
    obtain ⟨c, r, hname, -, hbare⟩ := isBare_of_bareName? t.bare
    rw [hname] at hbare ⊢
    exact congrArg some (skipBlanks_solid (hbare.solid c List.mem_cons_self) (r ++ s))
  have hif : optional (clause? ["IF", "NOT", "EXISTS"]) (t.name ++ ' ' :: '(' :: afterOpen) =
      t.name ++ ' ' :: '(' :: afterOpen := by
    rw [Sql.optional, clause?_of_isBare (by decide) (by decide) t.isBare]
    rfl
  have hopen : mark? '(' (skipBlanks (' ' :: '(' :: afterOpen)) = some afterOpen := rfl
  rw [text_append, hafter]
  unfold tableHeader?
  rw [hcreate]
  simp only [Option.bind_eq_bind, Option.bind_some]
  rw [hscope, hlifetime, htable]
  simp only [Option.bind_some]
  rw [hif, t.qualifiedName?_name]
  simp only [Option.bind_some]
  rw [hopen]
  rfl

theorem list?_text (rest : Text) :
    tableStatements.list? (t.body ++ ')' :: ';' :: rest) = some (t.body, ';' :: rest) := by
  have hgroup := group?_of_quiet t.balanced.quiet t.balanced.exists_foldl (';' :: rest)
  rw [StatementKind.list?, hgroup]
  rfl

end BareTable

theorem linesText_cons (t : BareTable) (ts : List BareTable) :
    linesText (t :: ts) = t.text ++ if ts = [] then [] else '\n' :: linesText ts := by
  cases ts with
  | nil => simp [linesText, join, List.intercalate]
  | cons u us =>
    rw [linesText, List.map_cons, join_cons _ _ (by simp)]
    simp [linesText]

theorem passed_linesText (ts : List BareTable) : Passed ('\n' :: linesText ts) := by
  have hbreak : Passed ['\n'] := passed_of_flat (by decide)
  induction ts with
  | nil => exact hbreak
  | cons t ts ih =>
    rw [linesText_cons]
    refine hbreak.append (t.passed.append ?_)
    split
    · exact passed_of_flat nofun
    · exact ih

theorem occurrencesAfter_next (ts : List BareTable) {found : List (Occurrence TableStatement)}
    (hnext : ∀ before, beginsWord before = true →
      tableStatements.occurrencesAfter before (linesText ts) = found) :
    tableStatements.occurrencesAfter (some ')')
      (';' :: if ts = [] then [] else '\n' :: linesText ts) = found := by
  have hlacks : Lacks "CREATE" [';'] := by decide
  split
  · rename_i hts
    subst hts
    have hsilent : Silent tableHeader? (linesText []) (some ')') [';'] :=
      hlacks.silent isCapital_create leads_tableHeader? rfl
    exact (tableStatements.occurrencesAfter_silent hsilent).trans (hnext (some ';') (by decide))
  · have hsilent : Silent tableHeader? (linesText ts) (some ')') ([';'] ++ ['\n']) :=
      hlacks.silent_gap isCapital_create leads_tableHeader? Script.isWordChar_break
    exact (tableStatements.occurrencesAfter_silent hsilent).trans (hnext (some '\n') (by decide))

theorem occurrencesAfter_linesText (ts : List BareTable) {before : Option Char}
    (hb : beginsWord before = true) :
    tableStatements.occurrencesAfter before (linesText ts) = ts.map fun t => .complete t.statement := by
  induction ts generalizing before with
  | nil =>
    have hempty : linesText [] = [] := rfl
    rw [hempty, StatementKind.occurrencesAfter]
    rfl
  | cons t ts ih =>
    have hcontent : tableStatements.content t.name t.body = t.statement := by
      obtain ⟨c, r, hname, -⟩ := isBare_of_bareName? t.bare
      have hne : t.name ≠ [] := by simp [hname]
      simp [tableStatements, BareTable.statement, normalizeName_of_isBare t.isBare hne]
    rw [linesText_cons, tableStatements.occurrencesAfter_of_header hb (t.tableHeader?_text _)
      (t.list?_text _), hcontent, occurrencesAfter_next ts fun _ => ih]
    rfl

theorem tableHeader?_append {header name : Text} (h : tableHeader? header = some (name, []))
    (t : Text) : tableHeader? (header ++ t) = some (name, t) := by
  have hu : EndsWith header '(' := by
    obtain ⟨lead, hlead⟩ := tableHeader?_paren h
    exact ⟨by rw [← hlead, List.getLast?_concat], Or.inl rfl⟩
  have hne : header ≠ [] := by
    rintro rfl
    cases h
  have hcut : Cut header t header (header ++ t) := ⟨List.suffix_refl header, hne, rfl⟩
  simp only [tableHeader?, Option.bind_eq_bind, Option.bind_eq_some_iff, Option.pure_def,
    Option.some.injEq, Prod.mk.injEq] at h
  obtain ⟨s₁, hcreate, s₂, htable, ⟨n, s₃⟩, hname, s₄, hopen, hn, rfl⟩ := h
  have hfirst : Steady header t (clause? ["CREATE"]) := steady_clause? hu t (by decide)
  have hsecond : Steady header t (clause? ["TABLE"]) := steady_clause? hu t (by decide)
  obtain ⟨s₁', hcreate', h₁⟩ := hfirst.exists_of_read hcut hcreate
  have h₁ := (h₁.optional (steady_firstOf_clause? hu t ["GLOBAL", "LOCAL"] (by decide))).optional
    (steady_firstOf_clause? hu t ["TEMP", "TEMPORARY", "UNLOGGED"] (by decide))
  obtain ⟨s₂', htable', h₂⟩ := hsecond.exists_of_read h₁ htable
  obtain ⟨s₃', hname', h₃⟩ :=
    qualifiedName?_cut hu (h₂.optional (steady_clause? hu t (by decide))) hname hopen
  have hopen' : mark? '(' (skipBlanks s₃') = some t := by
    rw [(h₃.skipBlanks hu).append, eq_cons_of_mark? hopen]
    rfl
  rw [tableHeader?, hcreate']
  simp only [Option.bind_eq_bind, Option.bind_some, List.map_cons, List.map_nil] at htable' ⊢
  rw [htable']
  simp only [Option.bind_some, hname', hopen', hn]
  rfl

theorem StatementKind.occurrencesAfter_of_unclosed {η α : Type} (kind : StatementKind η α)
    {header t : Text} {before : Option Char} {h : η} (hb : beginsWord before = true)
    (hread : kind.header? (header ++ t) = some (h, t)) (hlist : kind.list? t = none) :
    kind.occurrencesAfter before (header ++ t) =
      .unterminated header :: kind.occurrencesAfter (some '(') t := by
  have hafter : kind.headerAfter? before (header ++ t) = some (h, t) := by
    rw [headerAfter?, if_pos hb, hread]
  cases header with
  | nil => exact absurd (kind.header?_length hread) (Nat.lt_irrefl _)
  | cons c header =>
    rw [List.cons_append] at hafter ⊢
    rw [occurrencesAfter_cons, hafter]
    simp only [hlist]
    rw [← List.cons_append, take_of_eq_append rfl]

section
variable {header name x : Text}

/-- The scan for the end of the list runs to the end of the text. -/
theorem list?_unclosed (hopen : LeavesOpen x) (ts : List BareTable) :
    tableStatements.list? (x ++ '\n' :: linesText ts) = none := by
  obtain ⟨b, d, hd, hfoldl⟩ := hopen.exists_foldl
  have hquiet : Quiet Nesting.step Nesting.closes .opened (x ++ '\n' :: linesText ts) := by
    rw [quiet_append, hfoldl]
    exact ⟨hopen.quiet, (passed_linesText ts).quiet b d hd⟩
  have hspan := spanWith_of_quiet hquiet []
  rw [List.append_nil] at hspan
  have hgroup : group? (x ++ '\n' :: linesText ts) = none := by
    rw [group?, hspan]
    rfl
  rw [StatementKind.list?, hgroup]
  rfl

/-- A table whose list never closes is recorded by its header, once, and takes nothing from the
tables behind it. -/
theorem tableOccurrences_unclosed (hheader : tableHeader? header = some (name, []))
    (hcreate : Lacks "CREATE" x) (hopen : LeavesOpen x) (ts : List BareTable) :
    tableOccurrences (header ++ x ++ '\n' :: linesText ts) =
        .unterminated header :: tableOccurrences (linesText ts) ∧
      tableOccurrences (linesText ts) = ts.map (fun t => .complete t.statement) ∧
      ∀ tables record,
        (Schema.readTables .lenient
            (tableOccurrences (header ++ x ++ '\n' :: linesText ts)) tables).run record =
          (Schema.readTables .lenient (tableOccurrences (linesText ts)) tables).run
            (record ++ [⟨"CREATE TABLE", header, .unterminatedTable⟩]) := by
  have hlines : ∀ before, beginsWord before = true →
      tableStatements.occurrencesAfter before (linesText ts) =
        ts.map fun t => .complete t.statement :=
    fun _ => occurrencesAfter_linesText ts
  have hread := tableHeader?_append hheader (x ++ '\n' :: linesText ts)
  have hpassed : tableStatements.occurrencesAfter (some '(') (x ++ '\n' :: linesText ts) =
      tableStatements.occurrencesAfter (some '\n') (linesText ts) := by
    have hsilent : Silent tableHeader? (linesText ts) (some '(') (x ++ ['\n']) :=
      hcreate.silent_gap isCapital_create leads_tableHeader? Script.isWordChar_break
    have hfound := tableStatements.occurrencesAfter_silent hsilent
    rwa [List.append_assoc, lastOf_append] at hfound
  have hwhole : tableOccurrences (header ++ x ++ '\n' :: linesText ts) =
      .unterminated header :: tableOccurrences (linesText ts) := by
    rw [tableOccurrences, StatementKind.occurrences, List.append_assoc,
      tableStatements.occurrencesAfter_of_unclosed rfl hread (list?_unclosed hopen ts), hpassed,
      hlines _ (by decide), tableOccurrences, StatementKind.occurrences, hlines _ rfl]
  refine ⟨hwhole, hlines none rfl, ?_⟩
  intro tables record
  rw [hwhole]
  rfl

end

/-- Parentheses in a quoted name and in literals, and a table whose name is a word of the header. -/
theorem tableOccurrences_unclosed_quoted :
    let header : Text := "CREATE TABLE \"old (\" ("
    let x : Text := "\n  id INT,\n  note TEXT DEFAULT ')'"
    let ts : List BareTable := [
      ⟨"IF", "id INT CHECK (id > 0)", by decide +kernel,
        ⟨⟨by decide +kernel, by decide +kernel⟩, by decide +kernel⟩⟩,
      ⟨"b", " c TEXT DEFAULT 'CREATE TABLE d (' ", by decide +kernel,
        ⟨⟨by decide +kernel, by decide +kernel⟩, by decide +kernel⟩⟩]
    tableHeader? header = some (("\"old (\"" : Text), []) ∧ Lacks "CREATE" x ∧ LeavesOpen x ∧
      tableOccurrences (header ++ x ++ '\n' :: linesText ts) =
        [.unterminated header, .complete ⟨"IF", "id INT CHECK (id > 0)"⟩,
          .complete ⟨"b", "c TEXT DEFAULT 'CREATE TABLE d ('"⟩] := by
  intro header x ts
  have hheader : tableHeader? header = some (("\"old (\"" : Text), []) := by decide +kernel
  have hcreate : Lacks "CREATE" x := by decide +kernel
  have hopen : LeavesOpen x := ⟨by decide +kernel, by decide +kernel⟩
  obtain ⟨hwhole, hlines, -⟩ := tableOccurrences_unclosed hheader hcreate hopen ts
  have hstatements : ts.map (fun t => Occurrence.complete t.statement) =
      [.complete ⟨"IF", "id INT CHECK (id > 0)"⟩,
        .complete ⟨"b", "c TEXT DEFAULT 'CREATE TABLE d ('"⟩] := by decide +kernel
  rw [hwhole, hlines, hstatements]
  exact ⟨hheader, hcreate, hopen, rfl⟩

end SchemaDiagram.Sql
