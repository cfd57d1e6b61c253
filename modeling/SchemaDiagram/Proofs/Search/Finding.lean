import SchemaDiagram.Proofs.Cut.Statement

/-!
Where statements are found. The search takes every header at a word boundary that no earlier
finding owns, and nothing else (`mem_findings_iff`); the findings of a text lead to its
occurrences, in order (`map_occurrence_findings`).
-/

set_option autoImplicit false

namespace SchemaDiagram.Sql
open Text

/-- A header that was found and what it led to. The finding owns the places from where the header
begins up to where the search goes on, counted in characters. -/
structure Finding (α : Type) where
  start : Nat
  stop : Nat
  occurrence : Occurrence α
  deriving DecidableEq, Repr

namespace Finding
variable {α : Type}

/-- A place that the search passes because of the finding. -/
def Hides (f : Finding α) (n : Nat) : Prop := f.start < n ∧ n < f.stop

end Finding

namespace StatementKind
variable {η α : Type} (kind : StatementKind η α)

/-- What a header at a place of the text leads to. -/
def findingAt? (s : Text) (n : Nat) : Option (Finding α) :=
  match kind.headerAfter? (lastOf none (s.take n)) (s.drop n) with
  | none => none
  | some (header, afterOpen) =>
    match kind.list? afterOpen with
    | some (inside, rest) => some ⟨n, s.length - rest.length, .complete (kind.content header inside)⟩
    | none => some ⟨n, s.length - afterOpen.length,
        .unterminated ((s.drop n).take ((s.drop n).length - afterOpen.length))⟩

variable {kind} {s : Text} {n : Nat} {f : Finding α}

theorem start_of_findingAt? (h : kind.findingAt? s n = some f) : f.start = n := by
  unfold findingAt? at h
  split at h
  · cases h
  · split at h
    · cases h
      rfl
    · cases h
      rfl

theorem stop_of_findingAt? (h : kind.findingAt? s n = some f) :
    n < f.stop ∧ f.stop ≤ s.length := by
  unfold findingAt? at h
  split at h
  · cases h
  · rename_i header afterOpen hheader
    have hopen := kind.headerAfter?_length hheader
    rw [List.length_drop] at hopen
    split at h
    · rename_i inside rest hlist
      have hrest := kind.list?_length hlist
      cases h
      simp only
      omega
    · cases h
      simp only
      omega

variable (kind) in
def findingsFrom (s : Text) (n : Nat) : List (Finding α) :=
  if n < s.length then
    match _h : kind.findingAt? s n with
    | none => findingsFrom s (n + 1)
    | some f => f :: findingsFrom s f.stop
  else []
termination_by s.length - n
decreasing_by
  · omega
  · have := stop_of_findingAt? _h
    omega

variable (kind) in
def findings (s : Text) : List (Finding α) := kind.findingsFrom s 0

theorem header_of_findingAt? (h : kind.findingAt? s n = some f) :
    beginsWord (lastOf none (s.take n)) = true ∧ kind.header? (s.drop n) ≠ none := by
  unfold findingAt? headerAfter? at h
  by_cases hb : beginsWord (lastOf none (s.take n)) = true
  · refine ⟨hb, fun hnone => ?_⟩
    rw [if_pos hb, hnone] at h
    cases h
  · rw [if_neg hb] at h
    cases h

theorem of_mem_findingsFrom (h : f ∈ kind.findingsFrom s n) :
    n ≤ f.start ∧ kind.findingAt? s f.start = some f := by
  fun_induction findingsFrom kind s n with
  | case1 n hn hnone ih =>
    obtain ⟨hle, hat⟩ := ih h
    exact ⟨Nat.le_of_succ_le hle, hat⟩
  | case2 n hn g hat ih =>
    rcases List.mem_cons.1 h with rfl | h
    · rw [start_of_findingAt? hat]
      exact ⟨Nat.le_refl n, hat⟩
    · have hlt := (stop_of_findingAt? hat).1
      exact ⟨Nat.le_trans (Nat.le_of_lt hlt) (ih h).1, (ih h).2⟩
  | case3 => cases h

theorem pairwise_findingsFrom (s : Text) (n : Nat) :
    (kind.findingsFrom s n).Pairwise fun f g => f.stop ≤ g.start := by
  fun_induction findingsFrom kind s n with
  | case1 n hn hnone ih => exact ih
  | case2 n hn f hat ih =>
    exact List.pairwise_cons.2 ⟨fun g hg => (of_mem_findingsFrom hg).1, ih⟩
  | case3 => exact List.Pairwise.nil

theorem mem_findingsFrom_or_hides (hn : n ≤ f.start) (h : kind.findingAt? s f.start = some f) :
    f ∈ kind.findingsFrom s n ∨ ∃ g ∈ kind.findingsFrom s n, g.Hides f.start := by
  fun_induction findingsFrom kind s n with
  | case1 n hlt hnone ih =>
    have hne : n ≠ f.start := by
      rintro rfl
      rw [hnone] at h
      cases h
    exact ih (Nat.lt_of_le_of_ne hn hne)
  | case2 n hlt g hat ih =>
    have hstart := start_of_findingAt? hat
    by_cases hsame : n = f.start
    · rw [hsame, h] at hat
      cases hat
      exact Or.inl List.mem_cons_self
    by_cases hstop : f.start < g.stop
    · exact Or.inr ⟨g, List.mem_cons_self, by rw [hstart]; omega, hstop⟩
    · rcases ih (Nat.le_of_not_lt hstop) with hmem | ⟨k, hk, hhides⟩
      · exact Or.inl (List.mem_cons_of_mem g hmem)
      · exact Or.inr ⟨k, List.mem_cons_of_mem g hk, hhides⟩
  | case3 n hge =>
    have hlt := stop_of_findingAt? h
    omega

theorem not_hides_of_mem {g : Finding α} {l : List (Finding α)}
    (hl : l.Pairwise fun f g => f.stop ≤ g.start) (hf : f ∈ l) (hg : g ∈ l)
    (hlt : f.start < f.stop) : ¬ g.Hides f.start := by
  induction l with
  | nil => cases hf
  | cons k l ih =>
    obtain ⟨hk, hl⟩ := List.pairwise_cons.1 hl
    rintro ⟨hbefore, hbehind⟩
    rcases List.mem_cons.1 hf with rfl | hfl
    · rcases List.mem_cons.1 hg with rfl | hgl
      · exact Nat.lt_irrefl _ hbefore
      · have hle := hk g hgl
        omega
    · rcases List.mem_cons.1 hg with rfl | hgl
      · have hle := hk f hfl
        omega
      · exact ih hl hfl hgl ⟨hbefore, hbehind⟩

theorem mem_findings_iff : f ∈ kind.findings s ↔
    kind.findingAt? s f.start = some f ∧ ∀ g ∈ kind.findings s, ¬ g.Hides f.start := by
  constructor
  · intro hf
    have hat := (of_mem_findingsFrom hf).2
    refine ⟨hat, fun g hg => ?_⟩
    exact not_hides_of_mem (pairwise_findingsFrom s 0) hf hg (stop_of_findingAt? hat).1
  · rintro ⟨hat, hhidden⟩
    refine (mem_findingsFrom_or_hides (Nat.zero_le _) hat).resolve_right ?_
    rintro ⟨g, hg, hhides⟩
    exact hhidden g hg hhides

/-- Findings that are apart and leave no header between them are all that there are. -/
theorem eq_findingsFrom {l : List (Finding α)}
    (hat : ∀ f ∈ l, n ≤ f.start ∧ kind.findingAt? s f.start = some f)
    (hapart : l.Pairwise fun f g => f.stop ≤ g.start)
    (hbetween : ∀ m, n ≤ m → (∀ f ∈ l, ¬ (f.start ≤ m ∧ m < f.stop)) → kind.findingAt? s m = none) :
    l = kind.findingsFrom s n := by
  fun_induction findingsFrom kind s n generalizing l with
  | case1 n hn hnone ih =>
    refine ih (fun f hf => ⟨?_, (hat f hf).2⟩) hapart fun m hm => hbetween m (Nat.le_of_succ_le hm)
    refine Nat.lt_of_le_of_ne (hat f hf).1 ?_
    rintro rfl
    rw [(hat f hf).2] at hnone
    cases hnone
  | case2 n hn f hfound ih =>
    -- The place is covered, and the finding that covers it begins there.
    have hmem : f ∈ l := by
      by_contra hnot
      have hnone := hbetween n (Nat.le_refl n) fun g hg hcovers => by
        obtain ⟨hge, hread⟩ := hat g hg
        rw [Nat.le_antisymm hcovers.1 hge, hfound] at hread
        cases hread
        exact hnot hg
      rw [hnone] at hfound
      cases hfound
    cases l with
    | nil => cases hmem
    | cons g l =>
      obtain ⟨hg, hl⟩ := List.pairwise_cons.1 hapart
      obtain ⟨⟨hstart, hread⟩, htail⟩ := List.forall_mem_cons.1 hat
      have hfirst : f = g := by
        refine (List.mem_cons.1 hmem).resolve_right fun hlater => ?_
        have hle := hg f hlater
        have hlt := (stop_of_findingAt? hread).1
        rw [start_of_findingAt? hfound] at hle
        omega
      subst hfirst
      refine congrArg _ (ih (fun k hk => ⟨hg k hk, (htail k hk).2⟩) hl ?_)
      intro m hm hfree
      have hlt := (stop_of_findingAt? hfound).1
      refine hbetween m (by omega) (List.forall_mem_cons.2 ⟨fun hcovers => ?_, hfree⟩)
      exact absurd hcovers.2 (Nat.not_lt.2 hm)
  | case3 n hge =>
    refine List.eq_nil_iff_forall_not_mem.2 fun f hf => ?_
    obtain ⟨hle, hread⟩ := hat f hf
    have hlt := stop_of_findingAt? hread
    omega

theorem behind_of_suffix {c : Char} {r : Text} (h : c :: r <:+ s) :
    s.drop (s.length - r.length) = r ∧ lastOf none (s.take (s.length - r.length)) = some c := by
  obtain ⟨lead, rfl⟩ := h
  have hlength : (lead ++ c :: r).length - r.length = (lead ++ [c]).length := by
    simp
    omega
  have hsplit : lead ++ c :: r = lead ++ [c] ++ r := by simp
  rw [hlength, hsplit, List.drop_left, List.take_left, lastOf_append]
  exact ⟨rfl, rfl⟩

/-- The findings lead to the occurrences, where headers end with a parenthesis. -/
theorem map_occurrence_findingsFrom
    (hparen : ∀ {s r : Text} {h : η}, kind.header? s = some (h, r) → '(' :: r <:+ s)
    (s : Text) (n : Nat) : (kind.findingsFrom s n).map (·.occurrence) =
      kind.occurrencesAfter (lastOf none (s.take n)) (s.drop n) := by
  fun_induction findingsFrom kind s n with
  | case1 n hn hnone ih =>
    have hcons := List.drop_eq_getElem_cons hn
    have hheader : kind.headerAfter? (lastOf none (s.take n)) (s.drop n) = none := by
      unfold findingAt? at hnone
      split at hnone
      · assumption
      · split at hnone <;> cases hnone
    rw [hcons] at hheader
    rw [ih, hcons, occurrencesAfter_cons, hheader, List.take_succ_eq_append_getElem hn, lastOf_append]
    rfl
  | case2 n hn f hat ih =>
    have hcons := List.drop_eq_getElem_cons hn
    unfold findingAt? at hat
    split at hat
    · cases hat
    rename_i header afterOpen hheader
    -- The search goes on behind the parenthesis of the header or behind the one that closes its list.
    have hopen : '(' :: afterOpen <:+ s := by
      refine List.IsSuffix.trans ?_ (List.drop_suffix n s)
      unfold headerAfter? at hheader
      split at hheader
      · exact hparen hheader
      · cases hheader
    rw [List.map_cons, ih, hcons, occurrencesAfter_cons, ← hcons, hheader]
    split at hat
    · rename_i inside rest hlist
      have hclose : ')' :: rest <:+ s := by
        have hgroup := group?_eq_append (Option.filter_eq_some_iff.1 hlist).1
        exact ((hgroup ▸ List.suffix_append inside _).trans (List.suffix_cons '(' _)).trans hopen
      obtain ⟨hdrop, hlast⟩ := behind_of_suffix hclose
      cases hat
      simp only [hlist, hdrop, hlast]
    · rename_i hlist
      obtain ⟨hdrop, hlast⟩ := behind_of_suffix hopen
      cases hat
      simp only [hlist, hdrop, hlast]
  | case3 n hge =>
    rw [List.drop_eq_nil_of_le (Nat.le_of_not_lt hge), occurrencesAfter]
    rfl

theorem map_occurrence_findings
    (hparen : ∀ {s r : Text} {h : η}, kind.header? s = some (h, r) → '(' :: r <:+ s) (s : Text) :
    (kind.findings s).map (·.occurrence) = kind.occurrences s :=
  map_occurrence_findingsFrom hparen s 0

end StatementKind

end SchemaDiagram.Sql
