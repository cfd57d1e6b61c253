import SchemaDiagram.Proofs.Body.Separator
import SchemaDiagram.Proofs.Search.Region

/-!
Matched parentheses. The list of a table ends where its group closes, so its parentheses match and its
quotes are closed (`matched_of_group?`). Neither trimming nor collapsing changes that, since a gap holds
no parenthesis and leaves the scan in one state (`matched_iff_of_alike`). It holds of each part between
separating commas as well (`Matched.part`).
-/

set_option autoImplicit false

namespace SchemaDiagram.Sql
open Text Unicode

variable {s t a b : Text}

/-- Outside quotes, every beginning of the text opens at least as many groups as it closes, and the whole
text closes all of them; and every quote is closed. -/
structure Matched (s : Text) : Prop where
  ahead : ∀ u, u <+: s → 0 ≤ openGroups .start u
  level : openGroups .start s = 0
  closed : (Quoting.start.after s).isOpen = false

/-- What the scan for the end of a group reads behind its opening parenthesis. -/
def groupRead (s : Text) : Text :=
  match group? s with
  | some (inside, _) => inside ++ [')']
  | none => s

namespace Nesting

theorem quiet_clamps_groupRead (s : Text) : Quiet step clamps .start ('(' :: groupRead s) := by
  have hbehind : Quiet step clamps .opened (groupRead s) := by
    rw [groupRead]
    cases hgroup : group? s with
    | none => exact quiet_clamps_of_closes (quiet_of_group?_none hgroup) (Nat.le_refl 1)
    | some g =>
      obtain ⟨inside, rest⟩ := g
      have hquiet := quiet_of_spanWith (exists_of_group? hgroup)
      have hdeep := (foldl_deeper hquiet (Nat.le_refl 1) 0).1
      exact quiet_append.2
        ⟨quiet_clamps_of_closes hquiet (Nat.le_refl 1), clamps_of_deep hdeep ')', trivial⟩
  exact ⟨rfl, hbehind⟩

theorem quiet_clamps_iff {n : Nesting} :
    Quiet step clamps n s ↔ ∀ k, 0 ≤ n.depth + openGroups n.quoting (s.take k) := by
  constructor
  · intro hs k
    have hcount := depth_foldl (quiet_take hs k)
    omega
  · intro h
    induction s generalizing n with
    | nil => trivial
    | cons c s ih =>
      have hhere : n.clamps c = false := by
        refine Bool.eq_false_iff.2 fun hclamps => ?_
        simp only [clamps, Bool.and_eq_true, Bool.not_eq_true', decide_eq_true_eq] at hclamps
        obtain ⟨⟨hcovers, rfl⟩, hdepth⟩ := hclamps
        have hone : 0 ≤ n.depth + openGroups n.quoting [')'] := h 1
        rw [openGroups_close hcovers, hdepth] at hone
        exact absurd hone (by decide)
      refine ⟨hhere, ih fun k => ?_⟩
      have hk : 0 ≤ n.depth + openGroups n.quoting ([c] ++ s.take k) := h (k + 1)
      rw [openGroups_append, ← Int.add_assoc, ← depth_step hhere] at hk
      exact hk

end Nesting

/-- The scan of a matched text counts its groups and ends where it began. -/
theorem matched_iff : Matched s ↔ Quiet Nesting.step Nesting.clamps .start s ∧
    (s.foldl Nesting.step .start).depth = 0 ∧ (Quoting.start.after s).isOpen = false := by
  have hcount : ∀ {u : Text}, Quiet Nesting.step Nesting.clamps .start u →
      ((u.foldl Nesting.step .start).depth : Int) = openGroups .start u := fun hu =>
    (Nesting.depth_foldl hu).trans (Int.zero_add _)
  constructor
  · rintro ⟨hahead, hlevel, hclosed⟩
    have hquiet : Quiet Nesting.step Nesting.clamps .start s :=
      Nesting.quiet_clamps_iff.2 fun k =>
        (hahead _ (List.take_prefix k s)).trans_eq (Int.zero_add _).symm
    have hdepth := hcount hquiet
    exact ⟨hquiet, by omega, hclosed⟩
  · rintro ⟨hquiet, hdepth, hclosed⟩
    refine ⟨fun u hu => ?_, by rw [← hcount hquiet, hdepth]; rfl, hclosed⟩
    obtain ⟨v, rfl⟩ := hu
    have hu := hcount (quiet_append.1 hquiet).1
    omega

instance (s : Text) : Decidable (Matched s) := decidable_of_iff _ matched_iff.symm

/-- The inside of a group is matched. -/
theorem matched_of_group? {inside rest : Text} (h : group? s = some (inside, rest)) :
    Matched inside := by
  obtain ⟨hend, hopen⟩ := openGroups_of_group? h
  have hstop := stop_of_spanWith (exists_of_group? h)
  simp only [Nesting.closes, Bool.and_eq_true, Bool.not_eq_true'] at hstop
  have hcovers : (Quoting.start.after inside).covers ')' = false := by
    rw [← hstop.1.1, Nesting.quoting_foldl]
    rfl
  rw [openGroups_append, openGroups_close hcovers] at hend
  refine ⟨fun u hu => ?_, by omega, (Bool.or_eq_false_iff.1 hcovers).1⟩
  obtain ⟨v, rfl⟩ := hu
  have hu := hopen u.length (by simp)
  rwa [group?_eq_append h, List.append_assoc, List.take_left] at hu

namespace Nesting

theorem clamps_blank (n : Nesting) {c : Char} (hc : isBlank c = true) : n.clamps c = false := by
  simp [clamps, ne_of_isBlank (c := ')') (by decide) hc]

theorem quiet_clamps_blank (n : Nesting) (hs : ∀ c ∈ s, isBlank c = true) :
    Quiet step clamps n s := by
  induction s generalizing n with
  | nil => trivial
  | cons c s ih =>
    obtain ⟨hc, hs⟩ := List.forall_mem_cons.1 hs
    exact ⟨n.clamps_blank hc, ih _ hs⟩

theorem clamps_gap {n : Nesting} (hn : n.quoting.Regular) {c : Char} (hc : isBlank c = true)
    (s : Text) : (c :: s).foldl step n = (skipBlanks s).foldl step n.settled ∧
      (Quiet step clamps n (c :: s) ↔ Quiet step clamps n.settled (skipBlanks s)) := by
  obtain ⟨gap, hs, hgap⟩ : ∃ gap, s = gap ++ skipBlanks s ∧ ∀ c ∈ gap, isBlank c = true :=
    ⟨_, List.takeWhile_append_dropWhile.symm, fun _ h => List.mem_takeWhile_imp h⟩
  have hfoldl := foldl_settled hn hgap
  constructor
  · rw [List.foldl_cons, step_blank hn hc]
    conv => lhs; rw [hs]
    rw [List.foldl_append, hfoldl]
  · have hcons : Quiet step clamps n (c :: s) ↔ Quiet step clamps n.settled s := by
      rw [← step_blank hn hc]
      exact and_iff_right (n.clamps_blank hc)
    rw [hcons]
    conv => lhs; rw [hs]
    rw [quiet_append, hfoldl]
    exact and_iff_right (quiet_clamps_blank _ hgap)

theorem clamps_alike (h : Alike s t) {n : Nesting} (hn : n.quoting.Regular) :
    (s.foldl step n).settled = (t.foldl step n).settled ∧
      (Quiet step clamps n s ↔ Quiet step clamps n t) := by
  induction h generalizing n with
  | @ends s t hs ht =>
    have hend : ∀ {u : Text}, (∀ c ∈ u, isBlank c = true) → (u.foldl step n).settled = n.settled := by
      intro u hu
      cases u with
      | nil => rfl
      | cons c u =>
        obtain ⟨hc, hu⟩ := List.forall_mem_cons.1 hu
        rw [List.foldl_cons, step_blank hn hc, foldl_settled hn hu, settled_settled]
    exact ⟨(hend hs).trans (hend ht).symm,
      iff_of_true (quiet_clamps_blank n hs) (quiet_clamps_blank n ht)⟩
  | @solid c s t hc h ih =>
    obtain ⟨hfoldl, hquiet⟩ := ih (n := n.step c) (hn.step c)
    exact ⟨hfoldl, and_congr_right fun _ => hquiet⟩
  | @gap c c' s t hc hc' h ih =>
    obtain ⟨hfoldl, hquiet⟩ := ih (n := n.settled) hn.settled
    obtain ⟨hs, hs'⟩ := clamps_gap hn hc s
    obtain ⟨ht, ht'⟩ := clamps_gap hn hc' t
    exact ⟨by rw [hs, ht, hfoldl], hs'.trans (hquiet.trans ht'.symm)⟩

end Nesting

theorem matched_iff_of_alike (h : Alike s t) : Matched s ↔ Matched t := by
  obtain ⟨hfoldl, hquiet⟩ := Nesting.clamps_alike h (n := .start) Quoting.regular_start
  obtain ⟨hquoting, hdepth⟩ := Nesting.mk.inj hfoldl
  have hclosed : (Quoting.start.after s).isOpen = (Quoting.start.after t).isOpen := by
    have hopen := congrArg Quoting.isOpen hquoting
    rw [Declaration.isOpen_settled, Declaration.isOpen_settled, Nesting.quoting_foldl,
      Nesting.quoting_foldl] at hopen
    exact hopen
  rw [matched_iff, matched_iff, hquiet, hdepth, hclosed]

theorem matched_blank_append (hs : ∀ c ∈ s, isBlank c = true) (t : Text) :
    Matched (s ++ t) ↔ Matched t := by
  have hfoldl : s.foldl Nesting.step .start = .start := Nesting.foldl_blank hs
  have hafter : Quoting.start.after s = .start := by
    have hquoting := Nesting.quoting_foldl s .start
    rw [hfoldl] at hquoting
    exact hquoting.symm
  rw [matched_iff, matched_iff, quiet_append, hfoldl, List.foldl_append, hfoldl,
    Quoting.after_append, hafter, and_iff_right (Nesting.quiet_clamps_blank _ hs)]

theorem matched_trim (s : Text) : Matched (trim s) ↔ Matched s := by
  obtain ⟨lead, trail, hs, hlead, htrail⟩ := exists_padding s
  conv => rhs; rw [hs]
  rw [matched_blank_append hlead]
  exact matched_iff_of_alike (alike_append_blank htrail _)

theorem matched_collapse (s : Text) : Matched (collapse s) ↔ Matched s := by
  rw [← matched_iff_of_alike (alike_collapse s)]
  have hs : Matched (s.takeWhile isBlank ++ skipBlanks s) ↔ Matched (skipBlanks s) :=
    matched_blank_append (fun _ h => List.mem_takeWhile_imp h) _
  rw [← hs, skipBlanks, List.takeWhile_append_dropWhile]

theorem matched_append_comma (ha : EndsPart a) :
    Matched (a ++ ',' :: b) ↔ Matched a ∧ Matched b := by
  obtain ⟨hclosed, hdepth⟩ := Nesting.separates_iff.1 ha
  have hcomma := (Nesting.step_of_separates ha).2
  have hquoting : (a.foldl Nesting.step .start).quoting = Quoting.start.after a :=
    Nesting.quoting_foldl a .start
  have hclosed : (Quoting.start.after a).isOpen = false := hquoting ▸ hclosed
  have hhere : (a.foldl Nesting.step .start).clamps ',' = false := by simp [Nesting.clamps]
  have hsplit : Quoting.start.after (a ++ ',' :: b) = Quoting.start.after b := by
    have hstep : (Quoting.start.after a).step ',' = .start := by
      rw [← hquoting]
      exact congrArg Nesting.quoting hcomma
    rw [Quoting.after_append]
    exact congrArg (Quoting.after · b) hstep
  simp only [matched_iff, quiet_append, Quiet, hhere, hcomma, List.foldl_append, List.foldl_cons,
    hsplit, hdepth, hclosed, true_and, and_true]
  exact and_assoc

/-- Between separating commas, every part of a matched text is matched. -/
theorem Matched.part (hs : Matched s) : ∀ p ∈ topLevelParts s, Matched p := by
  have hone : ∀ s, OnePart s → Matched s → ∀ p ∈ topLevelParts s, Matched p := by
    intro s hpart hs p hp
    rcases topLevelParts_of_onePart hpart with ⟨-, hparts⟩ | ⟨-, hparts⟩
    · rw [hparts] at hp
      cases hp
    · rw [hparts, List.mem_singleton] at hp
      rw [hp, matched_trim]
      exact hs
  induction s using parts_induction with
  | one s hpart => exact hone s hpart hs
  | cut a b ha hends ih =>
    intro p hp
    obtain ⟨hfront, hbehind⟩ := (matched_append_comma hends).1 hs
    rw [topLevelParts_append hends] at hp
    exact (List.mem_append.1 hp).elim (hone a ha hfront p) (ih hbehind p)

theorem exists_group?_of_complete {sql : Text} {st : TableStatement}
    (h : .complete st ∈ tableOccurrences sql) :
    ∃ s inside rest, group? s = some (inside, rest) ∧ st.body = trim inside := by
  have hregions : tableStatements.Regions EndsHere tableStatements.content sql
      (tableStatements.findings sql) :=
    (StatementKind.regions_iff tableHeader?_paren endsStatement_iff).2 rfl
  rw [tableOccurrences, ← StatementKind.map_occurrence_findings tableHeader?_paren] at h
  obtain ⟨f, hf, hst⟩ := List.mem_map.1 h
  obtain ⟨howns, -⟩ := hregions.owned f hf
  cases howns with
  | complete hheader hclose hparen hends =>
    cases hst
    exact ⟨_, _, _, (hclose.group? hheader.drop).2, rfl⟩
  | unterminated hheader hopen => cases hst

/-- From an opening parenthesis on, the scan for the end of its group never closes a group that is not
open. So the body of a table is matched, the scan that cuts it into parts never does so either, and
every part is matched by itself. -/
theorem matched_body_of_complete :
    (∀ (t : Text) (offset : Nat) (s : Text), dropBytes? offset t = some ('(' :: s) →
      Quiet Nesting.step Nesting.clamps .start ('(' :: groupRead s)) ∧
    ∀ (sql : Text) (st : TableStatement), .complete st ∈ tableOccurrences sql →
      Matched (collapse st.body) ∧
      Quiet Nesting.step Nesting.clamps .start (collapse st.body) ∧
      ∀ f ∈ topLevelParts (collapse st.body), Matched f := by
  refine ⟨fun _ _ s _ => Nesting.quiet_clamps_groupRead s, fun sql st h => ?_⟩
  obtain ⟨s, inside, rest, hgroup, hbody⟩ := exists_group?_of_complete h
  have hmatched : Matched (collapse st.body) := by
    rw [hbody, matched_collapse, matched_trim]
    exact matched_of_group? hgroup
  exact ⟨hmatched, (matched_iff.1 hmatched).1, hmatched.part⟩

/-- In front of the table a group that does not close; in its body parentheses of an escape literal
behind a quote that a backslash takes, and longer gaps. -/
theorem matched_body_of_complete_quoted :
    let body : Text := "a TEXT DEFAULT E'\\') (\t(',\n  b NUMERIC(9,  2) CHECK (b > 0)"
    let behind : Text := " y;\nCREATE TABLE t (" ++ body ++ ");"
    let sql : Text := "x (" ++ behind
    let parts : List Text := ["a TEXT DEFAULT E'\\') ( ('", "b NUMERIC(9, 2) CHECK (b > 0)"]
    dropBytes? 2 sql = some ('(' :: behind) ∧
      Quiet Nesting.step Nesting.clamps .start ('(' :: groupRead behind) ∧
      .complete ⟨"t", body⟩ ∈ tableOccurrences sql ∧ Matched (collapse body) ∧
      Quiet Nesting.step Nesting.clamps .start (collapse body) ∧
      topLevelParts (collapse body) = parts ∧ ∀ f ∈ parts, Matched f := by
  intro body behind sql parts
  have hoffset : dropBytes? 2 sql = some ('(' :: behind) := by decide +kernel
  have hfound : .complete ⟨"t", body⟩ ∈ tableOccurrences sql := by decide +kernel
  have hparts : topLevelParts (collapse body) = parts := by decide +kernel
  obtain ⟨hgroup, htable⟩ := matched_body_of_complete
  obtain ⟨hmatched, hquiet, hall⟩ := htable sql ⟨"t", body⟩ hfound
  exact ⟨hoffset, hgroup sql 2 behind hoffset, hfound, hmatched, hquiet, hparts, hparts ▸ hall⟩

end SchemaDiagram.Sql
