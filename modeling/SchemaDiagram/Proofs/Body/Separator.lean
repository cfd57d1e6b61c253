import SchemaDiagram.Proofs.Body.Part
import SchemaDiagram.Proofs.Cut.Statement

/-!
The commas that separate parts. Behind a separating comma the scan is where it was at the beginning,
so a text is cut at its first separator and behind it as if it began there (`parts_induction`), and no
part is cut again (`topLevelParts_afresh`). Nor does it matter how long gaps are (`pieces_collapse`).
-/

set_option autoImplicit false

namespace SchemaDiagram.Sql
open Text Unicode

variable {s a b : Text}

namespace Nesting

theorem separates_settled (n : Nesting) : n.settled.separates ',' = n.separates ',' := by
  rw [separates, separates, Quoting.covers, Quoting.covers, settled, Declaration.isOpen_settled]

theorem foldl_settled {n : Nesting} (hn : n.quoting.Regular) (hs : ∀ c ∈ s, isBlank c = true) :
    s.foldl step n.settled = n.settled := by
  induction s with
  | nil => rfl
  | cons c s ih =>
    obtain ⟨hc, hs⟩ := List.forall_mem_cons.1 hs
    rw [List.foldl_cons, step_blank (n := n.settled) hn.settled hc, settled_settled, ih hs]

theorem foldl_blank (hs : ∀ c ∈ s, isBlank c = true) : s.foldl step .start = .start :=
  foldl_settled (n := .start) Quoting.regular_start hs

theorem separates_foldl_blank {n : Nesting} (hn : n.quoting.Regular)
    (hs : ∀ c ∈ s, isBlank c = true) :
    (s.foldl step n).separates ',' = n.separates ',' := by
  cases s with
  | nil => rfl
  | cons c s =>
    obtain ⟨hc, hs⟩ := List.forall_mem_cons.1 hs
    rw [List.foldl_cons, step_blank hn hc, foldl_settled hn hs, separates_settled]

end Nesting

def EndsPart (s : Text) : Prop := (s.foldl Nesting.step .start).separates ',' = true

/-- No comma of the text separates. -/
def OnePart (s : Text) : Prop := Quiet Nesting.step Nesting.separates .start s

theorem topLevelParts_append (ha : EndsPart a) (b : Text) :
    topLevelParts (a ++ ',' :: b) = topLevelParts a ++ topLevelParts b := by
  rw [topLevelParts_eq, piecesFrom_append ha, List.map_append, List.filter_append]
  rfl

theorem topLevelParts_of_onePart (hs : OnePart s) :
    (trim s = [] ∧ topLevelParts s = []) ∨ (trim s ≠ [] ∧ topLevelParts s = [trim s]) := by
  rw [topLevelParts_eq, piecesFrom_of_quiet hs]
  by_cases hempty : trim s = []
  · exact .inl ⟨hempty, by simp [hempty]⟩
  · exact .inr ⟨hempty, by simp [hempty]⟩

/-- A text is one part or is cut at its first separator. -/
theorem onePart_or_cut (s : Text) :
    OnePart s ∨ ∃ a b, s = a ++ ',' :: b ∧ OnePart a ∧ EndsPart a := by
  have happend := spanWith_append Nesting.step Nesting.separates .start s
  cases hspan : spanWith Nesting.step Nesting.separates .start s with
  | mk a rest =>
    rw [hspan] at happend
    have hquiet : OnePart a := quiet_of_spanWith hspan
    cases rest with
    | nil =>
      rw [List.append_nil] at happend
      exact .inl (happend ▸ hquiet)
    | cons c b =>
      have hstop := stop_of_spanWith hspan
      obtain ⟨rfl, -⟩ := Nesting.step_of_separates hstop
      exact .inr ⟨a, b, happend.symm, hquiet, hstop⟩

/-- Induction over the parts of a text, from its first separator on. -/
theorem parts_induction {P : Text → Prop} (one : ∀ s, OnePart s → P s)
    (cut : ∀ a b, OnePart a → EndsPart a → P b → P (a ++ ',' :: b)) (s : Text) : P s := by
  rcases onePart_or_cut s with hs | ⟨a, b, hs, hone, hends⟩
  · exact one s hs
  · have hlength : b.length < s.length := by
      rw [hs, List.length_append, List.length_cons]
      omega
    rw [hs]
    exact cut a b hone hends (parts_induction one cut b)
termination_by s.length

theorem OnePart.trim (hs : OnePart s) : OnePart (trim s) := by
  obtain ⟨lead, trail, hpadded, hlead, -⟩ := exists_padding s
  rw [OnePart, hpadded, quiet_append, Nesting.foldl_blank hlead, quiet_append] at hs
  exact hs.2.1

theorem EndsPart.trim (hs : EndsPart s) : EndsPart (trim s) := by
  obtain ⟨lead, trail, hpadded, hlead, htrail⟩ := exists_padding s
  have hregular := Declaration.regular_foldl (n := .start) Quoting.regular_start (Text.trim s)
  rwa [EndsPart, hpadded, List.foldl_append, Nesting.foldl_blank hlead, List.foldl_append,
    Nesting.separates_foldl_blank hregular htrail] at hs

theorem trimmed_part {p : Text} (hp : p ∈ topLevelParts s) : p ≠ [] ∧ trim p = p := by
  obtain ⟨hmem, hne⟩ := List.mem_filter.1 hp
  obtain ⟨q, -, rfl⟩ := List.mem_map.1 hmem
  exact ⟨by simpa using hne, trim_trim q⟩

theorem topLevelParts_trim (hs : OnePart s) (hne : trim s ≠ []) :
    topLevelParts (trim s) = [trim s] := by
  have hparts := topLevelParts_of_onePart hs.trim
  rw [trim_trim] at hparts
  exact (hparts.resolve_left fun h => hne h.1).2

theorem topLevelParts_part (s : Text) : ∀ p ∈ topLevelParts s, topLevelParts p = [p] := by
  have hone : ∀ s, OnePart s → ∀ p ∈ topLevelParts s, topLevelParts p = [p] := by
    intro s hs p hp
    rcases topLevelParts_of_onePart hs with ⟨-, hparts⟩ | ⟨hne, hparts⟩
    · rw [hparts] at hp
      cases hp
    · rw [hparts, List.mem_singleton] at hp
      rw [hp, topLevelParts_trim hs hne]
  induction s using parts_induction with
  | one s hs => exact hone s hs
  | cut a b ha hends ih =>
    intro p hp
    rw [topLevelParts_append hends] at hp
    exact (List.mem_append.1 hp).elim (hone a ha p) (ih p)

theorem topLevelParts_join_parts (s : Text) :
    topLevelParts (join ", " (topLevelParts s)) = topLevelParts s := by
  have hsingle : ∀ s, OnePart s → trim s ≠ [] → topLevelParts (join ", " [trim s]) = [trim s] := by
    intro s hs hne
    rw [join, List.intercalate_singleton, topLevelParts_trim hs hne]
  induction s using parts_induction with
  | one s hs =>
    rcases topLevelParts_of_onePart hs with ⟨-, hparts⟩ | ⟨hne, hparts⟩
    · rw [hparts]
      rfl
    · rw [hparts, hsingle s hs hne]
  | cut a b ha hends ih =>
    rw [topLevelParts_append hends]
    rcases topLevelParts_of_onePart ha with ⟨-, hparts⟩ | ⟨hne, hparts⟩
    -- An empty part is not joined, so its separator is gone.
    · rwa [hparts, List.nil_append]
    rw [hparts, List.singleton_append]
    cases hrest : topLevelParts b with
    | nil => exact hsingle a ha hne
    | cons q qs =>
      have hjoin : join ", " (trim a :: q :: qs) = trim a ++ ',' :: ' ' :: join ", " (q :: qs) := by
        rw [join_cons _ _ (List.cons_ne_nil q qs), List.append_assoc]
        rfl
      have hspace : topLevelParts (' ' :: join ", " (q :: qs)) =
          topLevelParts (join ", " (q :: qs)) := by
        rw [← topLevelParts_skipBlanks, skipBlanks_blank isBlank_space, topLevelParts_skipBlanks]
      rw [hrest] at ih
      rw [hjoin, topLevelParts_append hends.trim, topLevelParts_trim ha hne, hspace, ih]
      rfl

/-- Cutting begins afresh behind every separator. So a part is trimmed, not empty and one part of
itself, parts joined again are the same parts, and in front of a separator a text has the parts that
it has alone. -/
theorem topLevelParts_afresh :
    (∀ t : Text, (∀ p ∈ topLevelParts t, p ≠ [] ∧ trim p = p ∧ topLevelParts p = [p]) ∧
      topLevelParts (join ", " (topLevelParts t)) = topLevelParts t) ∧
    ∀ a b : Text, (Quoting.start.after a).isOpen = false →
      (a.foldl Nesting.step .start).depth = 0 →
      topLevelParts (a ++ "," ++ b) = topLevelParts a ++ topLevelParts b := by
  refine ⟨fun t => ⟨fun p hp => ?_, topLevelParts_join_parts t⟩, fun a b hclosed hdepth => ?_⟩
  · obtain ⟨hne, htrim⟩ := trimmed_part hp
    exact ⟨hne, htrim, topLevelParts_part t p hp⟩
  · have hquoting : (a.foldl Nesting.step .start).quoting = Quoting.start.after a :=
      Nesting.quoting_foldl a .start
    have hends : EndsPart a := Nesting.separates_iff.2 ⟨by rw [hquoting, hclosed], hdepth⟩
    rw [List.append_assoc]
    exact topLevelParts_append hends b

/-- A parenthesis without a partner, a comma in an escape literal behind a quote that a backslash
takes, an empty part, and a group and a literal that do not end. -/
theorem topLevelParts_afresh_unbalanced :
    let t : Text := ") x E'\\',' , , y (a, 'b, "
    let p : Text := ") x E'\\','"
    let q : Text := "y (a, 'b,"
    topLevelParts t = [p, q] ∧ p ∈ topLevelParts t ∧ topLevelParts p = [p] ∧
      topLevelParts (join ", " [p, q]) = [p, q] ∧ (Quoting.start.after p).isOpen = false ∧
      (p.foldl Nesting.step .start).depth = 0 ∧ topLevelParts (p ++ "," ++ q) = [p] ++ [q] := by
  intro t p q
  have hparts : topLevelParts t = [p, q] := by decide +kernel
  have hp : p ∈ topLevelParts t := by simp [hparts]
  have hq : q ∈ topLevelParts t := by simp [hparts]
  have hclosed : (Quoting.start.after p).isOpen = false := by decide +kernel
  have hdepth : (p.foldl Nesting.step .start).depth = 0 := by decide +kernel
  obtain ⟨hall, happend⟩ := topLevelParts_afresh
  obtain ⟨hpart, hjoin⟩ := hall t
  have happend := happend p q hclosed hdepth
  rw [(hpart p hp).2.2, (hpart q hq).2.2] at happend
  rw [hparts] at hjoin
  exact ⟨hparts, hp, (hpart p hp).2.2, hjoin, hclosed, hdepth, happend⟩

/-- Collapsing blanks moves, adds and removes no separator: the pieces between the separators, the
empty ones too, are the same but for their blanks, and so are the parts. -/
theorem pieces_collapse (t : Text) :
    (piecesFrom .start (collapse t)).map trim = (piecesFrom .start t).map collapse ∧
      topLevelParts (collapse t) = (topLevelParts t).map collapse :=
  ⟨map_trim_piecesFrom_collapse t, topLevelParts_collapse t⟩

/-- A backslash takes the first blank of a gap only, and behind a gap an E is no mark of what
follows. -/
example : topLevelParts (collapse "a E'\\\n \\',', b E\t'\\', c") =
    ["a E'\\ \\','", "b E '\\'", "c"] := by decide +kernel

end SchemaDiagram.Sql
