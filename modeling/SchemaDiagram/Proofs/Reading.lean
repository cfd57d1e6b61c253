import SchemaDiagram.Proofs.Faults
import SchemaDiagram.Schema.Reading

/-!
What holds of readings step by step. `Ensures` says what a reading in any mode gives if it succeeds.
`Agrees` compares the modes: strict mode does what lenient mode does, up to the first piece with a
fault of structure, which becomes its error; so whole schemas agree (`parse_strict_iff`).
-/

set_option autoImplicit false

namespace SchemaDiagram

theorem exists_run_of_bind {α β : Type} {r : Reading α} {f : α → Reading β} {record : List Skipped}
    {result : β × List Skipped} (h : (r >>= f).run record = .ok result) :
    ∃ a after, r.run record = .ok (a, after) ∧ (f a).run after = .ok result := by
  rw [StateT.run_bind] at h
  obtain ⟨⟨a, after⟩, hfirst, hnext⟩ := exists_of_bind_eq_ok h
  exact ⟨a, after, hfirst, hnext⟩

theorem Schema.run_of_parse {mode : Mode} {sql : Text} {m : Schema}
    (h : parse mode sql = .ok m) :
    (readStatements mode (Sql.stripComments sql)).run [] = .ok (m.tables, m.skipped) := by
  obtain ⟨⟨tables, skipped⟩, hrun, hm⟩ := exists_of_bind_eq_ok h
  cases hm
  exact hrun

/-- What a reading gives has the property, if it gives anything. -/
def Ensures {α : Type} (r : Reading α) (Q : α → Prop) : Prop :=
  ∀ (record : List Skipped) (a : α) (after : List Skipped), r.run record = .ok (a, after) → Q a

namespace Ensures
variable {α β : Type} {Q : α → Prop} {R : β → Prop}

theorem pure {a : α} (h : Q a) : Ensures (Pure.pure a) Q := by
  intro record b after hrun
  cases hrun
  exact h

theorem bind {r : Reading α} {f : α → Reading β} (h : Ensures r Q)
    (hnext : ∀ a, Q a → Ensures (f a) R) : Ensures (r >>= f) R := by
  intro record b after hrun
  obtain ⟨a, between, hfirst, hnextRun⟩ := exists_run_of_bind hrun
  exact hnext a (h record a between hfirst) between b after hnextRun

theorem trivial (r : Reading α) : Ensures r fun _ => True := fun _ _ _ _ => True.intro

theorem mono {r : Reading α} {Q' : α → Prop} (h : Ensures r Q) (hQ : ∀ a, Q a → Q' a) :
    Ensures r Q' :=
  fun record a after hrun => hQ a (h record a after hrun)

theorem of_parse {P : List Table → Prop} {mode : Mode} {sql : Text} {m : Schema}
    (h : Ensures (Schema.readStatements mode (Sql.stripComments sql)) P)
    (hm : Schema.parse mode sql = .ok m) : P m.tables :=
  h [] m.tables m.skipped (Schema.run_of_parse hm)

end Ensures

def firstFault? (pieces : List Skipped) : Option Skipped :=
  pieces.find? fun p => p.reason.isStructural

/-- What a strict reading gives where a lenient one gives `a` and leaves out `pieces`. -/
def strictResult {α : Type} (a : α) (record pieces : List Skipped) :
    Except Skipped (α × List Skipped) :=
  match firstFault? pieces with
  | none => .ok (a, record ++ pieces)
  | some p => .error p

/-- The two readings start from the same record; the lenient one always succeeds. -/
def Agrees {α : Type} (lenient strict : Reading α) : Prop :=
  ∀ record : List Skipped, ∃ (a : α) (pieces : List Skipped),
    lenient.run record = .ok (a, record ++ pieces) ∧
      strict.run record = strictResult a record pieces

namespace Agrees
variable {α β : Type}

theorem pure (a : α) : Agrees (Pure.pure a : Reading α) (Pure.pure a) := by
  intro record
  refine ⟨a, [], ?_, ?_⟩
  · rw [StateT.run_pure, List.append_nil]
    rfl
  · rw [StateT.run_pure, strictResult, List.append_nil]
    rfl

theorem bind {l s : Reading α} {f g : α → Reading β} (h : Agrees l s)
    (hnext : ∀ a, Agrees (f a) (g a)) : Agrees (l >>= f) (s >>= g) := by
  intro record
  obtain ⟨a, first, hl, hs⟩ := h record
  obtain ⟨b, later, hf, hg⟩ := hnext a (record ++ first)
  have hfind : firstFault? (first ++ later) = (firstFault? first).or (firstFault? later) :=
    List.find?_append
  refine ⟨b, first ++ later, ?_, ?_⟩
  · rw [StateT.run_bind, hl, ← List.append_assoc]
    exact hf
  · rw [StateT.run_bind, hs]
    unfold strictResult at *
    rw [hfind]
    cases hfirst : firstFault? first with
    | some p => rfl
    | none =>
      rw [Option.none_or, ← List.append_assoc]
      exact hg

theorem skip (piece : Skipped) : Agrees (skip .lenient piece) (skip .strict piece) := by
  intro record
  refine ⟨(), [piece], rfl, ?_⟩
  cases h : piece.reason.isStructural <;>
    simp [SchemaDiagram.skip, StateT.run, strictResult, firstFault?, h]

end Agrees

theorem Agrees.run_lenient {α : Type} {lenient strict : Reading α} (h : Agrees lenient strict)
    {record : List Skipped} {result : α × List Skipped} (hrun : strict.run record = .ok result) :
    lenient.run record = .ok result := by
  obtain ⟨a, pieces, hlenient, hstrict⟩ := h record
  rw [hstrict, strictResult] at hrun
  cases hfault : firstFault? pieces with
  | some p => simp [hfault] at hrun
  | none =>
    rw [hfault] at hrun
    rw [hlenient]
    exact hrun

namespace Schema
open Sql

theorem agrees_readColumns (table : Text) (fragments : List (Placed Text)) :
    Agrees (readColumns .lenient table fragments) (readColumns .strict table fragments) := by
  induction fragments with
  | nil => exact Agrees.pure []
  | cons f fs ih =>
    unfold readColumns
    cases ColumnDeclaration.ofFragment f.value with
    | ok d => exact ih.bind fun columns => Agrees.pure _
    | error reason => exact (Agrees.skip _).bind fun _ => ih

theorem agrees_readTable (statement : TableStatement) :
    Agrees (readTable .lenient statement) (readTable .strict statement) := by
  unfold readTable
  exact (agrees_readColumns _ _).bind fun columns => Agrees.pure _

theorem agrees_readTables (found : List (Occurrence TableStatement)) (tables : List Table) :
    Agrees (readTables .lenient found tables) (readTables .strict found tables) := by
  induction found generalizing tables with
  | nil => exact Agrees.pure tables
  | cons o rest ih =>
    cases o with
    | complete s => exact (agrees_readTable s).bind fun table => ih (put table tables)
    | unterminated header => exact (Agrees.skip _).bind fun _ => ih tables

theorem agrees_readIndexes (found : List (Occurrence IndexStatement)) (tables : List Table) :
    Agrees (readIndexes .lenient found tables) (readIndexes .strict found tables) := by
  induction found generalizing tables with
  | nil => exact Agrees.pure tables
  | cons o rest ih =>
    cases o with
    | complete s =>
      unfold readIndexes
      by_cases hknown : tables.any (·.name = s.table) = true
      · rw [if_pos hknown, if_pos hknown]
        exact ih _
      · rw [if_neg hknown, if_neg hknown]
        exact (Agrees.skip _).bind fun _ => ih tables
    | unterminated header => exact (Agrees.skip _).bind fun _ => ih tables

theorem agrees_readStatements (sql : Text) :
    Agrees (readStatements .lenient sql) (readStatements .strict sql) :=
  (agrees_readTables _ _).bind fun _ => agrees_readIndexes _ _

theorem exists_parse_lenient (sql : Text) :
    ∃ m : Schema, parse .lenient sql = .ok m ∧
      parse .strict sql = match firstFault? m.skipped with
        | none => .ok m
        | some p => .error p := by
  obtain ⟨tables, pieces, hlenient, hstrict⟩ := agrees_readStatements (stripComments sql) []
  refine ⟨⟨tables, pieces⟩, ?_, ?_⟩
  · simp only [parse, hlenient]
    rfl
  · simp only [parse, hstrict, strictResult]
    cases firstFault? pieces <;> rfl

/-- Lenient mode reads every text. Strict mode reads the same schema where nothing with a fault
of structure was left out, and else refuses the first such piece. -/
theorem parse_strict_iff (sql : Text) :
    ∃ m : Schema, parse .lenient sql = .ok m ∧
      (∀ m' : Schema, parse .strict sql = .ok m' ↔
        m' = m ∧ m.skipped.any (fun p => p.reason.isStructural) = false) ∧
      (∀ p : Skipped, parse .strict sql = .error p ↔
        m.skipped.find? (fun p => p.reason.isStructural) = some p) := by
  obtain ⟨m, hlenient, hstrict⟩ := exists_parse_lenient sql
  refine ⟨m, hlenient, ?_, ?_⟩
  · intro m'
    rw [hstrict]
    cases hfault : firstFault? m.skipped with
    | some p =>
      have hfound := List.find?_eq_some_iff_append.1 hfault
      have hmem := List.mem_of_find?_eq_some hfault
      have hany : m.skipped.any (fun p => p.reason.isStructural) = true :=
        List.any_eq_true.2 ⟨p, hmem, hfound.1⟩
      simp [hany]
    | none =>
      have hnone := List.find?_eq_none.1 hfault
      have hany : m.skipped.any (fun p => p.reason.isStructural) = false := by
        simpa using hnone
      simp [hany, eq_comm]
  · intro p
    rw [hstrict]
    show _ ↔ firstFault? m.skipped = some p
    cases hfault : firstFault? m.skipped <;> simp

end Schema

end SchemaDiagram
