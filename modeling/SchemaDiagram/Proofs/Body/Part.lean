import SchemaDiagram.Proofs.Declaration.Piece
import SchemaDiagram.Proofs.Spacing.Parts

/-!
Parts of a table body with commas between them. A part that closes its quotes and groups and has no
comma outside of them is passed at any depth as at the beginning, so the body is cut where the parts
were joined (`bodyFragments_join`) and fits into a list (`balanced_join`).
-/

set_option autoImplicit false

namespace SchemaDiagram.Sql
open Text Unicode

/-- A text that closes its quotes and groups, and in which no comma separates. -/
structure Whole (s : Text) : Prop where
  quiet : Quiet Nesting.step (Nesting.meets 0) .start s
  closed : (Quoting.start.after s).isOpen = false
  depth : (s.foldl Nesting.step .start).depth = 0

instance (s : Text) : Decidable (Whole s) :=
  decidable_of_iff (Quiet Nesting.step (Nesting.meets 0) .start s ∧
      (Quoting.start.after s).isOpen = false ∧ (s.foldl Nesting.step .start).depth = 0)
    ⟨fun h => ⟨h.1, h.2.1, h.2.2⟩, fun h => ⟨h.quiet, h.closed, h.depth⟩⟩

namespace Nesting

/-- Where nothing separates or closes at depth zero, the depth is only counted. -/
theorem step_raised {n : Nesting} {c : Char} (hc : meets 0 n c = false) (k : Nat) :
    step ⟨n.quoting, k + n.depth⟩ c = ⟨(n.step c).quoting, k + (n.step c).depth⟩ ∧
      meets k ⟨n.quoting, k + n.depth⟩ c = false := by
  simp only [meets, Nat.add_eq_left]
  refine ⟨?_, hc⟩
  simp only [step]
  split
  · rfl
  rename_i hcovers
  split
  · rfl
  split
  · rename_i hclose
    subst hclose
    have hdepth : n.depth ≠ 0 := by simpa [meets, hcovers] using hc
    rw [Nat.add_sub_assoc (Nat.one_le_iff_ne_zero.2 hdepth)]
  · rfl

theorem quiet_raised {n : Nesting} {s : Text} (hs : Quiet step (meets 0) n s) (k : Nat) :
    Quiet step (meets k) ⟨n.quoting, k + n.depth⟩ s ∧
      s.foldl step ⟨n.quoting, k + n.depth⟩ =
        ⟨(s.foldl step n).quoting, k + (s.foldl step n).depth⟩ := by
  induction s generalizing n with
  | nil => exact ⟨trivial, rfl⟩
  | cons c s ih =>
    obtain ⟨hstep, hmeets⟩ := step_raised hs.1 k
    obtain ⟨hquiet, hfoldl⟩ := ih hs.2
    refine ⟨⟨hmeets, ?_⟩, ?_⟩
    · rwa [hstep]
    · rw [List.foldl_cons, List.foldl_cons, hstep, hfoldl]

end Nesting

namespace Whole

theorem exists_foldl {s : Text} (hs : Whole s) :
    ∃ b, s.foldl Nesting.step .start = ⟨.outside b, 0⟩ := by
  have hquoting := Nesting.quoting_foldl s .start
  obtain ⟨b, hb⟩ := Quoting.exists_outside hs.closed
  have hsame : (s.foldl Nesting.step .start).quoting = .outside b := hquoting.trans hb
  exact ⟨b, by rw [← hsame, ← hs.depth]⟩

theorem passed {s : Text} (hs : Whole s) (d : Nat) :
    Quiet Nesting.step (Nesting.meets d) ⟨.start, d⟩ s ∧
      ∃ b, s.foldl Nesting.step ⟨.start, d⟩ = ⟨.outside b, d⟩ := by
  obtain ⟨b, hb⟩ := hs.exists_foldl
  obtain ⟨hquiet, hfoldl⟩ := Nesting.quiet_raised hs.quiet d
  rw [hb] at hfoldl
  exact ⟨hquiet, b, hfoldl⟩

theorem of_foldl {s : Text} (hs : Quiet Nesting.step (Nesting.meets 0) .start s) {b : Before}
    (hfoldl : s.foldl Nesting.step .start = ⟨.outside b, 0⟩) : Whole s := by
  have hquoting := Nesting.quoting_foldl s .start
  rw [hfoldl] at hquoting
  exact ⟨hs, congrArg Quoting.isOpen hquoting.symm, congrArg Nesting.depth hfoldl⟩

theorem blank {s : Text} (hs : ∀ c ∈ s, isBlank c = true) : Whole s := by
  have hflat : Flat s := by
    intro c hc
    exact ⟨Quoting.isQuote_of_isBlank (hs c hc), ne_of_isBlank (by decide) (hs c hc),
      ne_of_isBlank (by decide) (hs c hc)⟩
  obtain ⟨b, hb⟩ := hflat.foldl .gap 0
  refine of_foldl (hflat.quiet ?_ .gap) hb
  intro c hc b
  simp [Nesting.meets, ne_of_isBlank (c := ',') (by decide) (hs c hc), (hflat c hc).2.2]

theorem cons_blank {s : Text} {c : Char} (hc : isBlank c = true) (hs : Whole s) :
    Whole (c :: s) := by
  obtain ⟨b, hb⟩ := hs.exists_foldl
  have hstep : Nesting.step .start c = .start := Nesting.step_blank Quoting.regular_start hc
  refine of_foldl ⟨?_, ?_⟩ (b := b) ?_
  · simp [Nesting.meets, ne_of_isBlank (c := ',') (by decide) hc,
      ne_of_isBlank (c := ')') (by decide) hc]
  · rw [hstep]
    exact hs.quiet
  · rw [List.foldl_cons, hstep, hb]

theorem append_blank {s t : Text} {c : Char} (hs : Whole s) (hc : isBlank c = true)
    (ht : Whole t) : Whole (s ++ c :: t) := by
  obtain ⟨b, hb⟩ := hs.exists_foldl
  obtain ⟨b', hb'⟩ := ht.exists_foldl
  have hregular : (Quoting.outside b).Regular := fun _ hq => nomatch hq
  have hstep : Nesting.step ⟨.outside b, 0⟩ c = .start := Nesting.step_blank (n := ⟨_, 0⟩) hregular hc
  refine of_foldl ?_ (b := b') ?_
  · rw [quiet_append, hb]
    refine ⟨hs.quiet, ?_, ?_⟩
    · simp [Nesting.meets, ne_of_isBlank (c := ',') (by decide) hc,
        ne_of_isBlank (c := ')') (by decide) hc]
    · rw [hstep]
      exact ht.quiet
  · rw [List.foldl_append, hb, List.foldl_cons, hstep, hb']

theorem append_gap {s t gap : Text} (hs : Whole s) (hne : gap ≠ []) (hgap : ∀ c ∈ gap, isBlank c = true)
    (ht : Whole t) : Whole (s ++ (gap ++ t)) := by
  obtain ⟨b, gap, rfl⟩ := List.exists_cons_of_ne_nil hne
  obtain ⟨hb, hgap⟩ := List.forall_mem_cons.1 hgap
  have hfront : ∀ gap : Text, (∀ c ∈ gap, isBlank c = true) → Whole (gap ++ t) := by
    intro gap hgap
    induction gap with
    | nil => exact ht
    | cons c gap ih =>
      obtain ⟨hc, hgap⟩ := List.forall_mem_cons.1 hgap
      exact (ih hgap).cons_blank hc
  exact hs.append_blank hb (hfront gap hgap)

theorem of_flat {s : Text} (hs : Flat s) (hcomma : ∀ c ∈ s, c ≠ ',') : Whole s := by
  have hlevel := level_of_flat hs hcomma
  obtain ⟨b, hb⟩ := hlevel.back .gap 0
  exact of_foldl (hlevel.quiet .gap 0) hb

end Whole

theorem step_comma (b : Before) (d : Nat) : Nesting.step ⟨.outside b, d⟩ ',' = ⟨.start, d⟩ := by
  have hcomma : isAlphanumeric ',' = false := by decide
  rw [Nesting.step_outside (c := ',') (by decide)]
  simp [Quoting.Before.next, hcomma, Quoting.start]

theorem join_comma_cons (p q : Text) (ps : List Text) :
    join [','] (p :: q :: ps) = p ++ ',' :: join [','] (q :: ps) := by
  rw [join_cons _ _ (List.cons_ne_nil q ps), List.append_assoc]
  rfl

/-- A body is cut where its parts were joined. -/
theorem piecesFrom_join {p : Text} {ps : List Text} (h : ∀ q ∈ p :: ps, Whole q) :
    piecesFrom .start (join [','] (p :: ps)) = p :: ps := by
  have hone : ∀ {q : Text}, Whole q → piecesFrom .start q = [q] :=
    fun hq => piecesFrom_of_quiet (hq.quiet.mono Nesting.meets_of_separates)
  induction ps generalizing p with
  | nil =>
    rw [join, List.intercalate_singleton]
    exact hone (h p List.mem_cons_self)
  | cons q qs ih =>
    obtain ⟨hp, hqs⟩ := List.forall_mem_cons.1 h
    obtain ⟨b, hb⟩ := hp.exists_foldl
    have hends : (p.foldl Nesting.step .start).separates ',' = true := by
      rw [hb]
      rfl
    rw [join_comma_cons, piecesFrom_append hends, hone hp, ih hqs]
    rfl

theorem topLevelParts_join_comma {parts : List Text} (h : ∀ p ∈ parts, Whole p) :
    topLevelParts (join [','] parts) = (parts.map trim).filter fun p => !p.isEmpty := by
  cases parts with
  | nil => rfl
  | cons p ps => rw [topLevelParts_eq, piecesFrom_join h]

def collapsedParts (parts : List Text) : List Text :=
  (parts.map collapse).filter fun p => !p.isEmpty

theorem collapsedParts_append (ps qs : List Text) :
    collapsedParts (ps ++ qs) = collapsedParts ps ++ collapsedParts qs := by
  rw [collapsedParts, List.map_append, List.filter_append]
  rfl

theorem collapsedParts_cons {p : Text} (hp : collapse p ≠ []) (ps : List Text) :
    collapsedParts (p :: ps) = collapse p :: collapsedParts ps := by
  rw [collapsedParts, List.map_cons, List.filter_cons_of_pos (by simpa using hp)]
  rfl

/-- The fragments of a body are its parts. -/
theorem bodyFragments_join {parts : List Text} (h : ∀ p ∈ parts, Whole p) :
    bodyFragments (join [','] parts) = collapsedParts parts := by
  rw [bodyFragments_eq, topLevelParts_join_comma h, collapsedParts]
  induction parts with
  | nil => rfl
  | cons p ps ih =>
    have hempty : (trim p).isEmpty = (collapse p).isEmpty := by
      rw [Bool.eq_iff_iff, List.isEmpty_iff, List.isEmpty_iff]
      exact collapse_eq_nil_iff.symm
    have hps := ih fun q hq => h q (List.mem_cons_of_mem p hq)
    simp only [List.map_cons, List.filter_cons, hempty]
    split
    · rw [List.map_cons, collapse_trim, hps]
    · exact hps

theorem balanced_join {parts : List Text} (h : ∀ p ∈ parts, Whole p) :
    Balanced (join [','] parts) := by
  have hpassed : Quiet Nesting.step Nesting.closes .opened (join [','] parts) ∧
      ∃ b, (join [','] parts).foldl Nesting.step .opened = ⟨.outside b, 1⟩ := by
    induction parts with
    | nil => exact ⟨trivial, .gap, rfl⟩
    | cons p ps ih =>
      obtain ⟨hquiet, b, hb⟩ := (h p List.mem_cons_self).passed 1
      have hquiet := hquiet.mono Nesting.meets_of_closes
      cases ps with
      | nil =>
        have hone : join [','] [p] = p := by simp [join]
        rw [hone]
        exact ⟨hquiet, b, hb⟩
      | cons q qs =>
        obtain ⟨hrest, hback⟩ := ih fun r hr => h r (List.mem_cons_of_mem p hr)
        have hcomma : Nesting.closes ⟨.outside b, 1⟩ ',' = false := rfl
        have hopened : p.foldl Nesting.step .opened = ⟨.outside b, 1⟩ := hb
        rw [join_comma_cons, quiet_append, List.foldl_append, hopened, List.foldl_cons, step_comma]
        exact ⟨⟨hquiet, hcomma, by rw [step_comma]; exact hrest⟩, hback⟩
  obtain ⟨hquiet, b, hb⟩ := hpassed
  have hquoting := Nesting.quoting_foldl (join [','] parts) .opened
  rw [hb] at hquoting
  exact ⟨⟨hquiet, congrArg Quoting.isOpen hquoting.symm⟩, congrArg Nesting.depth hb⟩

end SchemaDiagram.Sql

namespace SchemaDiagram.Declaration
open Sql Unicode Text

theorem stops_of_meets (n : Nesting) (c : Char) (hc : Nesting.meets 0 n c = true) :
    Nesting.stops n c = true := by
  simp only [Nesting.meets, Bool.and_eq_true, Bool.or_eq_true, Bool.not_eq_true',
    decide_eq_true_eq] at hc
  obtain ⟨⟨hcovers, hdepth⟩, rfl | rfl⟩ := hc <;> simp [Nesting.stops, hcovers, hdepth]

theorem Inside.whole {s : Text} (hs : Inside s) : Whole s := by
  obtain ⟨b, hb⟩ := hs.back .gap 0
  exact Whole.of_foldl ((hs.quiet .gap 0).mono stops_of_meets) hb

theorem IsToken.whole {s : Text} (hs : IsToken s) : Whole s :=
  ⟨hs.quiet.mono stops_of_meets, hs.closed, hs.level⟩

namespace Part

theorem exists_collapsed (p : Part) : ∃ q : Part, q.text = collapse p.text := by
  cases p with
  | bare text h =>
    refine ⟨.bare text h, (collapse_of_tidy ?_).symm⟩
    obtain ⟨c, r, hcons, -, hbare⟩ := isBare_of_bareName? h
    exact (tidy_of_solid (by simp [hcons]) hbare.solid).tidyFrom
  | quoted inside hne hquote =>
    have hmark : isBlank '"' = false := by decide
    obtain ⟨b, s, rfl⟩ := List.exists_cons_of_ne_nil hne
    obtain ⟨hb, hs⟩ := not_or.1 (mt List.mem_cons.2 hquote)
    have hfree : ∀ {u : Text}, (∀ d ∈ u, d = ' ' ∨ d ∈ b :: s) → '"' ∉ u := by
      intro u hu hmem
      rcases hu _ hmem with hspace | hmem
      · cases hspace
      · exact hquote hmem
    by_cases hblank : isBlank b = true
    · obtain ⟨u, hu, hmem⟩ := exists_collapse_append hmark s
      have hu' : '"' ∉ ' ' :: u := hfree
        (List.forall_mem_cons.2 ⟨.inl rfl, fun d hd => (hmem d hd).imp_right (List.mem_cons_of_mem b)⟩)
      refine ⟨.quoted (' ' :: u) (List.cons_ne_nil _ _) hu', ?_⟩
      change '"' :: ' ' :: (u ++ ['"']) = collapse ('"' :: b :: (s ++ ['"']))
      rw [collapse_solid_blank hmark hblank, hu, if_neg (by simp)]
    · have hblank : isBlank b = false := by simpa using hblank
      obtain ⟨u, hu, hmem⟩ := exists_collapse_append hmark (b :: s)
      obtain ⟨v, hv⟩ := exists_collapse_solid hblank (s ++ ['"'])
      have hne' : u ≠ [] := by
        rintro rfl
        rw [List.cons_append, hv] at hu
        exact hb (List.cons.inj hu).1.symm
      refine ⟨.quoted u hne' (hfree hmem), ?_⟩
      change '"' :: (u ++ ['"']) = collapse ('"' :: b :: (s ++ ['"']))
      rw [collapse_solid_solid hmark hblank, ← hu]
      rfl

end Part

end SchemaDiagram.Declaration
