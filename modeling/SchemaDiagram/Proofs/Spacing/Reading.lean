import SchemaDiagram.Proofs.Spacing.Statement
import SchemaDiagram.Schema.Reading

set_option autoImplicit false

namespace SchemaDiagram
open Sql Text Unicode

def Skipped.collapsed (p : Skipped) : Skipped := { p with fragment := collapse p.fragment }

def Schema.collapsed (m : Schema) : Schema := { m with skipped := m.skipped.map Skipped.collapsed }

/-- What reading gives, but for the blanks in what is left out or refused. -/
def collapsedResult (result : Except Skipped Schema) : Except Skipped Schema :=
  (result.map Schema.collapsed).mapError Skipped.collapsed

/-- Results of two readings that are the same but for the blanks in fragments. -/
inductive SameResult {α : Type} :
    Except Skipped (α × List Skipped) → Except Skipped (α × List Skipped) → Prop where
  | ok {a : α} {record record' : List Skipped}
      (h : record.map Skipped.collapsed = record'.map Skipped.collapsed) :
      SameResult (.ok (a, record)) (.ok (a, record'))
  | error {p p' : Skipped} (h : p.collapsed = p'.collapsed) : SameResult (.error p) (.error p')

def SameReading {α : Type} (r r' : Reading α) : Prop :=
  ∀ record record' : List Skipped,
    record.map Skipped.collapsed = record'.map Skipped.collapsed →
      SameResult (r.run record) (r'.run record')

namespace SameReading
variable {α β : Type}

theorem pure (a : α) : SameReading (Pure.pure a : Reading α) (Pure.pure a) :=
  fun _ _ hrecord => .ok hrecord

theorem bind {r r' : Reading α} {f f' : α → Reading β} (h : SameReading r r')
    (hnext : ∀ a, SameReading (f a) (f' a)) : SameReading (r >>= f) (r' >>= f') := by
  intro record record' hrecord
  have hfirst := h record record' hrecord
  rw [StateT.run_bind, StateT.run_bind]
  generalize r.run record = x at hfirst
  generalize r'.run record' = y at hfirst
  cases hfirst with
  | ok h => exact hnext _ _ _ h
  | error h => exact .error h

theorem skip (mode : Mode) {p p' : Skipped} (h : p.collapsed = p'.collapsed) :
    SameReading (skip mode p) (skip mode p') := by
  intro record record' hrecord
  have hreason : p.collapsed.reason = p'.collapsed.reason := congrArg Skipped.reason h
  change p.reason = p'.reason at hreason
  simp only [SchemaDiagram.skip, StateT.run, hreason]
  split
  · exact .error h
  · refine .ok ?_
    rw [List.map_append, List.map_append, hrecord, List.map_singleton, List.map_singleton, h]

end SameReading

namespace Schema
variable {mode : Mode}

theorem sameReading_readColumns (table : Text) (fragments : List (Placed Text)) :
    SameReading (readColumns mode table fragments) (readColumns mode table fragments) := by
  induction fragments with
  | nil => exact .pure []
  | cons f fs ih =>
    unfold readColumns
    cases ColumnDeclaration.ofFragment f.value with
    | ok d => exact ih.bind fun columns => .pure _
    | error reason => exact (SameReading.skip mode rfl).bind fun _ => ih

theorem sameReading_readTable {s s' : TableStatement} (hname : s.name = s'.name)
    (hbody : collapse s.body = collapse s'.body) :
    SameReading (readTable mode s) (readTable mode s') := by
  simp only [readTable, bodyFragments, hname, hbody]
  exact (sameReading_readColumns _ _).bind fun columns => .pure _

theorem sameReading_readTables {found found' : List (Occurrence TableStatement)}
    (h : List.Forall₂
      (SameOccurrence fun a b => a.name = b.name ∧ collapse a.body = collapse b.body) found found')
    (tables : List Table) :
    SameReading (readTables mode found tables) (readTables mode found' tables) := by
  induction h generalizing tables with
  | nil => exact .pure tables
  | cons ho _ ih =>
    cases ho with
    | complete h => exact (sameReading_readTable h.1 h.2).bind fun table => ih _
    | unterminated h =>
      refine (SameReading.skip mode ?_).bind fun _ => ih tables
      simp only [Skipped.collapsed, h]

theorem sameReading_readIndexes {found found' : List (Occurrence IndexStatement)}
    (h : List.Forall₂ (SameOccurrence Eq) found found') (tables : List Table) :
    SameReading (readIndexes mode found tables) (readIndexes mode found' tables) := by
  induction h generalizing tables with
  | nil => exact .pure tables
  | cons ho _ ih =>
    cases ho with
    | complete h =>
      subst h
      unfold readIndexes
      split
      · exact ih _
      · exact (SameReading.skip mode rfl).bind fun _ => ih tables
    | unterminated h =>
      refine (SameReading.skip mode ?_).bind fun _ => ih tables
      simp only [Skipped.collapsed, h]

theorem sameReading_readStatements {s t : Text} (h : Alike (skipBlanks s) t) (hquote : '"' ∉ s) :
    SameReading (readStatements mode s) (readStatements mode t) :=
  (sameReading_readTables (respects_tableStatements.forall₂_occurrences h hquote) []).bind
    fun _ => sameReading_readIndexes (respects_indexStatements.forall₂_occurrences h hquote) _

theorem stripComments_of_unmarked {s : Text} (hline : hasPair '-' '-' s = false)
    (hblock : hasPair '/' '*' s = false) : stripComments s = s := by
  rw [stripComments, stripCommentsBy, hline, hblock]
  rfl

theorem hasPair_eq_false {a b : Char} {s : Text} (h : ¬ [a, b] <:+: s) : hasPair a b s = false := by
  induction s with
  | nil => rfl
  | cons c s ih =>
    cases s with
    | nil => rfl
    | cons d s =>
      have hfirst : (decide (c = a) && decide (d = b)) = false := by
        by_contra hpair
        simp only [Bool.not_eq_false, Bool.and_eq_true, decide_eq_true_eq] at hpair
        obtain ⟨rfl, rfl⟩ := hpair
        exact h ⟨[], s, rfl⟩
      rw [hasPair, hfirst, Bool.false_or]
      exact ih fun hrest => h (hrest.trans (List.suffix_cons c _).isInfix)

theorem collapsedResult_collapse {s : Text} (hline : hasPair '-' '-' s = false)
    (hblock : hasPair '/' '*' s = false) (hquote : '"' ∉ s) (mode : Mode) :
    collapsedResult (parse mode (collapse s)) = collapsedResult (parse mode s) := by
  have hline' := (hasPair_collapse (x := '-') (y := '-') (by decide) (by decide) s).trans hline
  have hblock' := (hasPair_collapse (x := '/') (y := '*') (by decide) (by decide) s).trans hblock
  have hsame := @sameReading_readStatements mode _ _ (alike_collapse s) hquote [] [] rfl
  rw [parse, parse, stripComments_of_unmarked hline hblock, stripComments_of_unmarked hline' hblock']
  generalize (readStatements mode s).run [] = x at hsame
  generalize (readStatements mode (collapse s)).run [] = y at hsame
  cases hsame with
  | @ok tables record record' h =>
    have hschema : Schema.collapsed ⟨tables, record'⟩ = Schema.collapsed ⟨tables, record⟩ := by
      simp only [Schema.collapsed, h]
    exact congrArg Except.ok hschema
  | error h => exact congrArg Except.error h.symm

/-- Blanks can be collapsed, or set otherwise, without changing what is read. -/
theorem parse_collapse {s : Text} (hline : ¬ "--".toList <:+: s) (hblock : ¬ "/*".toList <:+: s)
    (hquote : '"' ∉ s) (mode : Mode) :
    collapsedResult (parse mode (collapse s)) = collapsedResult (parse mode s) ∧
      ∀ t : Text, collapse t = collapse s →
        collapsedResult (parse mode t) = collapsedResult (parse mode s) := by
  have hline := hasPair_eq_false hline
  have hblock := hasPair_eq_false hblock
  have hcollapse := collapsedResult_collapse hline hblock hquote mode
  refine ⟨hcollapse, ?_⟩
  intro t ht
  have hpair : ∀ {x y : Char}, isBlank x = false → isBlank y = false → hasPair x y s = false →
      hasPair x y t = false := by
    intro x y hx hy hs
    rwa [← hasPair_collapse hx hy, ht, hasPair_collapse hx hy]
  have hquote' : '"' ∉ t := by
    have hsolid : isBlank '"' = false := by decide
    rwa [← mem_collapse_iff hsolid, ht, mem_collapse_iff hsolid]
  rw [← hcollapse, ← ht]
  exact (collapsedResult_collapse (hpair (by decide) (by decide) hline)
    (hpair (by decide) (by decide) hblock) hquote' mode).symm

/-- Gaps inside a name of two parts, behind a backslash in a literal, and in a header that leads
nowhere. -/
theorem parse_collapse_wrapped :
    collapsedResult (parse .lenient
        "\tCREATE  TABLE s .\n a(b TEXT DEFAULT E'\\\n  (') ;\nCREATE\u00a0TABLE  t (") =
      .ok {
        tables := [{
          name := "s.a"
          columns := [{ name := "b", dataType := "TEXT", default? := some "E'\\ ('" }] }]
        skipped := [⟨"CREATE TABLE", "CREATE TABLE t (", .unterminatedTable⟩] } := by
  have hsame := (@parse_collapse "CREATE TABLE s . a(b TEXT DEFAULT E'\\ (') ; CREATE TABLE t ("
    (by decide +kernel) (by decide +kernel) (by decide +kernel) .lenient).2
  exact (hsame _ (by decide +kernel)).trans (by decide +kernel)

end Schema

end SchemaDiagram
