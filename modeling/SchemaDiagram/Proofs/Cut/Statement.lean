import SchemaDiagram.Proofs.Cut.Header
import SchemaDiagram.Proofs.Spacing.Statement

/-!
Statements of two texts one after the other. Where the first text ends with a semicolon and leaves
no header behind whose list does not end, its statements are found as if nothing followed, and those
of the second as if nothing preceded (`occurrences_append`).
-/

set_option autoImplicit false

namespace SchemaDiagram.Sql
open Text Unicode

def Occurrence.IsComplete {α : Type} : Occurrence α → Prop
  | .complete _ => True
  | .unterminated _ => False

instance {α : Type} (o : Occurrence α) : Decidable o.IsComplete := by
  cases o
  · exact isTrue trivial
  · exact isFalse id

section
variable {σ : Type} {step : σ → Char → σ} {stop : σ → Char → Bool} {st : σ} {s inside r : Text}
  {c : Char}

theorem spanWith_of_stopped (h : spanWith step stop st s = (inside, c :: r)) (t : Text) :
    spanWith step stop st (s ++ t) = (inside, c :: (r ++ t)) := by
  induction s generalizing st inside with
  | nil => cases h
  | cons d s ih =>
    rw [List.cons_append]
    simp only [spanWith] at h ⊢
    split at h
    · rename_i hd
      cases h
      rw [if_pos hd]
    · rename_i hd
      obtain ⟨rfl, hr⟩ := Prod.mk.inj h
      rw [if_neg hd, ih (Prod.ext rfl hr)]

theorem stop_of_spanWith (h : spanWith step stop st s = (inside, c :: r)) :
    stop (inside.foldl step st) c = true := by
  induction s generalizing st inside with
  | nil => cases h
  | cons d s ih =>
    simp only [spanWith] at h
    split at h
    · rename_i hd
      cases h
      exact hd
    · obtain ⟨rfl, hr⟩ := Prod.mk.inj h
      rw [List.foldl_cons]
      exact ih (Prod.ext rfl hr)

end

theorem exists_of_group? {s inside rest : Text} (h : group? s = some (inside, rest)) :
    spanWith Nesting.step Nesting.closes .opened s = (inside, ')' :: rest) := by
  unfold group? at h
  split at h
  · rename_i i c r heq
    cases h
    have hn := stop_of_spanWith heq
    simp only [Nesting.closes, Bool.and_eq_true, decide_eq_true_eq] at hn
    rw [heq, hn.1.2]
  · cases h

theorem group?_eq_append {s inside rest : Text} (h : group? s = some (inside, rest)) :
    s = inside ++ ')' :: rest := by
  have happend := spanWith_append Nesting.step Nesting.closes .opened s
  rw [exists_of_group? h] at happend
  exact happend.symm

theorem group?_append {s inside rest : Text} (h : group? s = some (inside, rest)) (t : Text) :
    group? (s ++ t) = some (inside, rest ++ t) := by
  rw [group?, spanWith_of_stopped (exists_of_group? h)]

theorem endsStatement_append {s : Text} (hs : ';' ∈ s) (t : Text) :
    endsStatement (s ++ t) = endsStatement s := by
  have hsolid : isBlank ';' = false := by decide
  have hmem : ';' ∈ s.dropWhile isBlank := (mem_skipBlanks_iff hsolid).2 hs
  obtain ⟨c, r, hrest⟩ := List.exists_cons_of_ne_nil (List.ne_nil_of_mem hmem)
  rw [endsStatement, endsStatement, trimStart, trimStart, List.dropWhile_append, hrest]
  rfl

namespace StatementKind
variable {η α : Type} {kind : StatementKind η α}

theorem occurrencesAfter_congr {before before' : Option Char}
    (h : beginsWord before = beginsWord before') (s : Text) :
    kind.occurrencesAfter before s = kind.occurrencesAfter before' s := by
  cases s with
  | nil => rw [occurrencesAfter, occurrencesAfter]
  | cons c s =>
    have hheader : kind.headerAfter? before (c :: s) = kind.headerAfter? before' (c :: s) := by
      rw [headerAfter?, headerAfter?, h]
    rw [occurrencesAfter_cons, occurrencesAfter_cons, hheader]

/-- What a kind of statement makes of the text `u` does not depend on what follows it. -/
structure Steady (kind : StatementKind η α) (u t : Text) : Prop where
  header : ∀ {s s' : Text}, Cut u t s s' →
    Option.Rel (fun x y => x.1 = y.1 ∧ Cut u t x.2 y.2) (kind.header? s) (kind.header? s')
  ends : ∀ {s s' : Text}, Cut u t s s' → kind.ends s = kind.ends s'

variable {u t s s' : Text}

theorem Steady.headerAfter? (hkind : kind.Steady u t) (h : Cut u t s s') (before : Option Char) :
    Option.Rel (fun x y => x.1 = y.1 ∧ Cut u t x.2 y.2) (kind.headerAfter? before s)
      (kind.headerAfter? before s') := by
  unfold StatementKind.headerAfter?
  split
  · exact hkind.header h
  · exact .none

theorem Steady.list? (hkind : kind.Steady u t) (hu : EndsWith u ';') (h : Cut u t s s')
    {inside rest : Text} (hlist : kind.list? s = some (inside, rest)) :
    Cut u t rest (rest ++ t) ∧ kind.list? s' = some (inside, rest ++ t) := by
  obtain ⟨hgroup, hends⟩ := Option.filter_eq_some_iff.1 hlist
  have hclose : Cut u t (')' :: rest) (')' :: rest ++ t) :=
    h.inside (group?_eq_append hgroup ▸ List.suffix_append inside _)
  have hrest : Cut u t rest (rest ++ t) := hclose.tail hu (by decide)
  refine ⟨hrest, ?_⟩
  rw [StatementKind.list?, h.append, group?_append hgroup, Option.filter_some]
  exact if_pos ((hkind.ends hrest).symm.trans hends)

/-- In front of the cut the statements are found as before, and the search comes to the cut behind
the semicolon. -/
theorem Steady.occurrencesAfter_append (hkind : kind.Steady u t) (hu : EndsWith u ';')
    (h : Cut u t s s') {before : Option Char}
    (hcomplete : ∀ o ∈ kind.occurrencesAfter before s, o.IsComplete) :
    kind.occurrencesAfter before s' =
      kind.occurrencesAfter before s ++ kind.occurrencesAfter none t := by
  induction hlength : s.length using Nat.strongRecOn generalizing s s' before with
  | ind n ih =>
    subst hlength
    obtain ⟨c, r, rfl, rfl⟩ := h.exists_cons
    have hheader := hkind.headerAfter? h before
    rw [occurrencesAfter_cons] at hcomplete ⊢
    rw [occurrencesAfter_cons before c r]
    generalize hx : kind.headerAfter? before (c :: r) = x at hheader hcomplete
    generalize kind.headerAfter? before (c :: (r ++ t)) = y at hheader
    cases hheader with
    | none =>
      cases r with
      | nil =>
        -- Behind the semicolon a word may begin, as at the beginning of a text.
        have hlast : c = ';' := by
          by_contra hc
          exact (h.tail hu hc).ne_nil rfl
        subst hlast
        have hbegins : beginsWord (some ';') = beginsWord none := by decide
        rw [List.nil_append, occurrencesAfter, List.nil_append, occurrencesAfter_congr hbegins]
      | cons d r =>
        have hrest : Cut u t (d :: r) (d :: r ++ t) := h.inside (List.suffix_cons c _)
        exact ih _ (Nat.lt_succ_self _) hrest hcomplete rfl
    | @some x y hxy =>
      obtain ⟨header, afterOpen⟩ := x
      obtain ⟨header', afterOpen'⟩ := y
      obtain ⟨rfl, hopen⟩ := hxy
      simp only at hopen hcomplete ⊢
      cases hl : kind.list? afterOpen with
      | none =>
        rw [hl] at hcomplete
        exact absurd (hcomplete _ List.mem_cons_self) id
      | some l =>
        obtain ⟨inside, rest⟩ := l
        rw [hl] at hcomplete
        obtain ⟨hrest, hlist⟩ := hkind.list? hu hopen hl
        have hlt : rest.length < (c :: r).length :=
          Nat.lt_trans (kind.list?_length hl) (kind.headerAfter?_length hx)
        rw [hlist]
        refine congrArg _ (ih _ hlt hrest ?_ rfl)
        exact fun o ho => hcomplete o (List.mem_cons_of_mem _ ho)

end StatementKind

theorem steady_tableStatements {u t : Text} (hu : EndsWith u ';') (hquote : '"' ∉ u ∨ '"' ∉ t) :
    tableStatements.Steady u t where
  header h := rel_tableHeader?_cut hu hquote h
  ends h := by
    rw [h.append]
    exact (endsStatement_append (h.mark_mem hu) t).symm

theorem steady_indexStatements {u t : Text} (hu : EndsWith u ';') (hquote : '"' ∉ u ∨ '"' ∉ t) :
    indexStatements.Steady u t where
  header h := rel_indexHeader?_cut hu hquote h
  ends _ := rfl

theorem occurrences_append_of_steady {η α : Type} {kind : StatementKind η α} {s t : Text}
    (hs : EndsWith s ';') (hkind : kind.Steady s t)
    (hcomplete : ∀ o ∈ kind.occurrences s, o.IsComplete) :
    kind.occurrences (s ++ t) = kind.occurrences s ++ kind.occurrences t := by
  have hne : s ≠ [] := by
    rintro rfl
    cases hs.last
  exact hkind.occurrencesAfter_append hs ⟨List.suffix_refl s, hne, rfl⟩ hcomplete

/-- A text that ends with a semicolon, and whose headers all lead to a statement, can be read apart
from what follows it, provided that no quoted name can reach from one into the other. -/
theorem occurrences_append {s t : Text} (hend : s.getLast? = some ';')
    (hquote : '"' ∉ s ∨ '"' ∉ t) :
    ((∀ o ∈ tableOccurrences s, o.IsComplete) →
      tableOccurrences (s ++ t) = tableOccurrences s ++ tableOccurrences t) ∧
    ((∀ o ∈ indexOccurrences s, o.IsComplete) →
      indexOccurrences (s ++ t) = indexOccurrences s ++ indexOccurrences t) := by
  have hs : EndsWith s ';' := ⟨hend, Or.inr rfl⟩
  exact ⟨occurrences_append_of_steady hs (steady_tableStatements hs hquote),
    occurrences_append_of_steady hs (steady_indexStatements hs hquote)⟩

/-- A list with a semicolon in a literal in front of the cut, and names in quotes behind it. -/
theorem occurrences_append_quoted :
    let s : Text := "CREATE TABLE a (b TEXT DEFAULT ');');CREATE INDEX ON a (b);"
    let t : Text := "CREATE TABLE \"c;\" (d INT);CREATE INDEX \"i\" ON \"c;\" (d"
    s.getLast? = some ';' ∧ '"' ∉ s ∧ (∀ o ∈ tableOccurrences s, o.IsComplete) ∧
      (∀ o ∈ indexOccurrences s, o.IsComplete) ∧
      tableOccurrences (s ++ t) =
        [.complete ⟨"a", "b TEXT DEFAULT ');'"⟩, .complete ⟨"c;", "d INT"⟩] ∧
      indexOccurrences (s ++ t) =
        [.complete ⟨none, "a", "b"⟩, .unterminated "CREATE INDEX \"i\" ON \"c;\" ("] := by
  intro s t
  have hend : s.getLast? = some ';' := by decide +kernel
  have hquote : '"' ∉ s := by decide +kernel
  have htables : ∀ o ∈ tableOccurrences s, o.IsComplete := by decide +kernel
  have hindexes : ∀ o ∈ indexOccurrences s, o.IsComplete := by decide +kernel
  obtain ⟨happendTables, happendIndexes⟩ := occurrences_append (t := t) hend (Or.inl hquote)
  refine ⟨hend, hquote, htables, hindexes, ?_, ?_⟩
  · exact (happendTables htables).trans (by decide +kernel)
  · exact (happendIndexes hindexes).trans (by decide +kernel)

end SchemaDiagram.Sql
