import SchemaDiagram.Proofs.Pieces
import SchemaDiagram.Sql.Nesting
import SchemaDiagram.Text.Width

/-!
How pieces of a text pass the scans for quotes and parentheses. A level piece leaves the depth as
it was, and a comma or a closing parenthesis in it belongs to a quote or to a group of its own.
-/

set_option autoImplicit false

namespace SchemaDiagram.Sql
open Unicode Text

namespace Quoting

theorem maskFrom_append (q : Quoting) (s t : Text) :
    q.maskFrom (s ++ t) = q.maskFrom s ++ (q.after s).maskFrom t := by
  induction s generalizing q with
  | nil => rfl
  | cons c s ih =>
    have hafter : q.after (c :: s) = (q.step c).after s := rfl
    rw [List.cons_append, maskFrom, maskFrom, ih, hafter, List.append_assoc]

theorem width_spaces (n : Nat) : width (List.replicate n ' ') = n := by
  induction n with
  | zero => rfl
  | succ n ih =>
    have hspace : ' '.utf8Size = 1 := rfl
    rw [List.replicate_succ, width, ih, hspace]
    omega

theorem width_maskFrom (q : Quoting) (s : Text) : width (q.maskFrom s) = width s := by
  induction s generalizing q with
  | nil => rfl
  | cons c s ih =>
    rw [maskFrom, width_append, ih, width]
    split
    · rw [width_spaces]
    · simp [width]

theorem step_outside {b : Before} {c : Char} (hc : isQuote c = false) :
    (outside b).step c = outside (Before.next b c) := by
  simp only [isQuote, Bool.or_eq_false_iff, decide_eq_false_iff_not] at hc
  simp [step, hc.1, hc.2]

theorem maskFrom_outside {s : Text} (hs : ∀ c ∈ s, isQuote c = false) (b : Before) :
    (outside b).maskFrom s = s := by
  induction s generalizing b with
  | nil => rfl
  | cons c s ih =>
    rw [maskFrom, step_outside (hs c List.mem_cons_self),
      ih fun d hd => hs d (List.mem_cons_of_mem c hd)]
    rfl

theorem mask_of_not_quote {s : Text} (hs : ∀ c ∈ s, isQuote c = false) : mask s = s :=
  maskFrom_outside hs .gap

theorem next_space (b : Before) : Before.next b ' ' = .gap := by
  have hspace : isAlphanumeric ' ' = false := by decide
  simp [Before.next, hspace]

end Quoting

namespace Nesting

theorem step_outside {b : Before} {d : Nat} {c : Char} (hc : Quoting.isQuote c = false) :
    step ⟨.outside b, d⟩ c =
      ⟨.outside (Quoting.Before.next b c),
        if c = '(' then d + 1 else if c = ')' then d - 1 else d⟩ := by
  simp only [step, Quoting.step_outside hc, Quoting.covers, Quoting.isOpen, hc, Bool.or_false,
    Bool.false_eq_true, if_false]

theorem quoting_foldl (s : Text) (n : Nesting) :
    (s.foldl step n).quoting = n.quoting.after s := by
  induction s generalizing n with
  | nil => rfl
  | cons c s ih => exact ih (n.step c)

def meets (d : Nat) (n : Nesting) (c : Char) : Bool :=
  !n.quoting.covers c && n.depth = d && (c = ',' || c = ')')

theorem meets_of_closes (n : Nesting) (c : Char) (h : n.closes c = true) : meets 1 n c = true := by
  simp only [closes, Bool.and_eq_true, Bool.not_eq_true', decide_eq_true_eq] at h
  obtain ⟨⟨hcovers, rfl⟩, hdepth⟩ := h
  simp [meets, hcovers, hdepth]

theorem meets_of_separates (n : Nesting) (c : Char) (h : n.separates c = true) :
    meets 0 n c = true := by
  simp only [separates, Bool.and_eq_true, Bool.not_eq_true', decide_eq_true_eq] at h
  obtain ⟨⟨hcovers, rfl⟩, hdepth⟩ := h
  simp [meets, hcovers, hdepth]

end Nesting

def Flat (s : Text) : Prop := ∀ c ∈ s, Quoting.isQuote c = false ∧ c ≠ '(' ∧ c ≠ ')'

instance (s : Text) : Decidable (Flat s) := inferInstanceAs (Decidable (∀ _ ∈ _, _))

theorem Flat.append {s t : Text} (hs : Flat s) (ht : Flat t) : Flat (s ++ t) := by
  intro c hc
  rcases List.mem_append.1 hc with hc | hc
  · exact hs c hc
  · exact ht c hc

theorem Flat.foldl {s : Text} (hs : Flat s) (b : Before) (d : Nat) :
    ∃ b', s.foldl Nesting.step ⟨.outside b, d⟩ = ⟨.outside b', d⟩ := by
  induction s generalizing b with
  | nil => exact ⟨b, rfl⟩
  | cons c s ih =>
    obtain ⟨hquote, hopen, hclose⟩ := hs c List.mem_cons_self
    obtain ⟨b', hb'⟩ := ih (fun e he => hs e (List.mem_cons_of_mem c he)) (Quoting.Before.next b c)
    refine ⟨b', ?_⟩
    rw [List.foldl_cons, Nesting.step_outside hquote, if_neg hopen, if_neg hclose, hb']

theorem Flat.quiet {s : Text} (hs : Flat s) {stop : Nesting → Char → Bool} {d : Nat}
    (hstop : ∀ c ∈ s, ∀ b, stop ⟨.outside b, d⟩ c = false) (b : Before) :
    Quiet Nesting.step stop ⟨.outside b, d⟩ s := by
  induction s generalizing b with
  | nil => trivial
  | cons c s ih =>
    obtain ⟨hquote, hopen, hclose⟩ := hs c List.mem_cons_self
    refine ⟨hstop c List.mem_cons_self b, ?_⟩
    rw [Nesting.step_outside hquote, if_neg hopen, if_neg hclose]
    exact ih (fun e he => hs e (List.mem_cons_of_mem c he))
      (fun e he => hstop e (List.mem_cons_of_mem c he)) (Quoting.Before.next b c)

/-- Passed at any depth outside quotes. -/
structure Level (s : Text) : Prop where
  quiet : ∀ b d, Quiet Nesting.step (Nesting.meets d) ⟨.outside b, d⟩ s
  back : ∀ b d, ∃ b', s.foldl Nesting.step ⟨.outside b, d⟩ = ⟨.outside b', d⟩

theorem Level.after {s : Text} (hs : Level s) (b : Before) :
    ∃ b', (Quoting.outside b).after s = .outside b' := by
  obtain ⟨b', hb'⟩ := hs.back b 0
  have hquoting := Nesting.quoting_foldl s ⟨.outside b, 0⟩
  rw [hb'] at hquoting
  exact ⟨b', hquoting.symm⟩

theorem level_nil : Level [] := ⟨fun _ _ => trivial, fun b _ => ⟨b, rfl⟩⟩

theorem Level.append {s t : Text} (hs : Level s) (ht : Level t) : Level (s ++ t) := by
  refine ⟨?_, ?_⟩
  · intro b d
    obtain ⟨b', hb'⟩ := hs.back b d
    rw [quiet_append, hb']
    exact ⟨hs.quiet b d, ht.quiet b' d⟩
  · intro b d
    obtain ⟨b', hb'⟩ := hs.back b d
    rw [List.foldl_append, hb']
    exact ht.back b' d

theorem level_of_flat {s : Text} (hs : Flat s) (hcomma : ∀ c ∈ s, c ≠ ',') : Level s := by
  refine ⟨?_, hs.foldl⟩
  intro b d
  refine hs.quiet ?_ b
  intro c hc b
  simp [Nesting.meets, hcomma c hc, (hs c hc).2.2]

theorem level_group {s : Text} (hs : Flat s) : Level ('(' :: (s ++ [')'])) := by
  have hopen : ∀ b d, Nesting.step ⟨.outside b, d⟩ '(' =
      ⟨.outside (Quoting.Before.next b '('), d + 1⟩ := by
    intro b d
    rw [Nesting.step_outside (c := '(') (by decide)]
    rfl
  have hclose : ∀ b d, Nesting.step ⟨.outside b, d + 1⟩ ')' =
      ⟨.outside (Quoting.Before.next b ')'), d⟩ := by
    intro b d
    rw [Nesting.step_outside (c := ')') (by decide)]
    rfl
  refine ⟨?_, ?_⟩
  · intro b d
    obtain ⟨b', hb'⟩ := hs.foldl (Quoting.Before.next b '(') (d + 1)
    refine ⟨by simp [Nesting.meets], ?_⟩
    rw [hopen, quiet_append, hb']
    refine ⟨hs.quiet ?_ _, ?_, trivial⟩
    · intro c _ b
      simp [Nesting.meets]
    · simp [Nesting.meets]
  · intro b d
    obtain ⟨b', hb'⟩ := hs.foldl (Quoting.Before.next b '(') (d + 1)
    refine ⟨Quoting.Before.next b' ')', ?_⟩
    rw [List.foldl_cons, hopen, List.foldl_append, hb', List.foldl_cons, hclose]
    rfl

theorem group?_of_quiet {s : Text} (hs : Quiet Nesting.step Nesting.closes .opened s)
    (hback : ∃ b, s.foldl Nesting.step .opened = ⟨.outside b, 1⟩) (rest : Text) :
    group? (s ++ ')' :: rest) = some (s, rest) := by
  obtain ⟨b, hb⟩ := hback
  have hclose : Nesting.closes ⟨.outside b, 1⟩ ')' = true := rfl
  have hstop : spanWith Nesting.step Nesting.closes ⟨.outside b, 1⟩ (')' :: rest) =
      ([], ')' :: rest) := by
    rw [spanWith, if_pos hclose]
  rw [group?, spanWith_of_quiet hs, hb, hstop]
  simp

theorem group?_of_flat {s : Text} (hs : Flat s) (rest : Text) :
    group? (s ++ ')' :: rest) = some (s, rest) := by
  refine group?_of_quiet (hs.quiet ?_ .gap) (hs.foldl .gap 1) rest
  intro c hc b
  simp [Nesting.closes, (hs c hc).2.2]

theorem quiet_closes_join {parts : List Text} (h : ∀ p ∈ parts, Level p) (b : Before) :
    Quiet Nesting.step Nesting.closes ⟨.outside b, 1⟩ (join ", " parts) ∧
      ∃ b', (join ", " parts).foldl Nesting.step ⟨.outside b, 1⟩ = ⟨.outside b', 1⟩ := by
  have hcomma : Flat ", " := by decide
  -- Each piece leaves the depth but not the character before, so that one is generalized.
  induction parts generalizing b with
  | nil => exact ⟨trivial, b, rfl⟩
  | cons p ps ih =>
    have hp := h p List.mem_cons_self
    have hps : ∀ q ∈ ps, Level q := fun q hq => h q (List.mem_cons_of_mem p hq)
    obtain ⟨b₁, hb₁⟩ := hp.back b 1
    have hquiet := (hp.quiet b 1).mono Nesting.meets_of_closes
    cases ps with
    | nil =>
      have hone : join ", " [p] = p := by simp [join, List.intercalate]
      rw [hone]
      exact ⟨hquiet, b₁, hb₁⟩
    | cons q qs =>
      obtain ⟨b₂, hb₂⟩ := hcomma.foldl b₁ 1
      obtain ⟨hrest, hback⟩ := ih hps b₂
      have hbetween : Quiet Nesting.step Nesting.closes ⟨.outside b₁, 1⟩ ", " := by
        refine hcomma.quiet ?_ b₁
        intro c hc b
        simp [Nesting.closes, (hcomma c hc).2.2]
      have hjoin : join ", " (p :: q :: qs) = p ++ (", " ++ join ", " (q :: qs)) := by
        rw [join_cons _ _ (List.cons_ne_nil q qs), List.append_assoc]
      rw [hjoin, quiet_append, quiet_append, List.foldl_append, List.foldl_append, hb₁, hb₂]
      exact ⟨⟨hquiet, hbetween, hrest⟩, hback⟩

theorem splitWith_separates_join {p : Text} {ps : List Text} (h : ∀ q ∈ p :: ps, Level q)
    (b : Before) :
    splitWith Nesting.step Nesting.separates ⟨.outside b, 0⟩ (join ", " (p :: ps)) =
      (p, ps.map (' ' :: ·)) := by
  induction ps generalizing p b with
  | nil =>
    have hp := h p List.mem_cons_self
    have hone : join ", " [p] = p ++ [] := by simp [join, List.intercalate]
    rw [hone, splitWith_of_quiet ((hp.quiet b 0).mono Nesting.meets_of_separates)]
    simp [splitWith]
  | cons q qs ih =>
    have hp := h p List.mem_cons_self
    have hqs : ∀ r ∈ q :: qs, Level r := fun r hr => h r (List.mem_cons_of_mem p hr)
    obtain ⟨b₁, hb₁⟩ := hp.back b 0
    have hcomma : Nesting.step ⟨.outside b₁, 0⟩ ',' = ⟨.outside (Quoting.Before.next b₁ ','), 0⟩ :=
      Nesting.step_outside (c := ',') (by decide)
    have hspace : Nesting.step ⟨.outside (Quoting.Before.next b₁ ','), 0⟩ ' ' =
        ⟨.outside (Quoting.Before.next (Quoting.Before.next b₁ ',') ' '), 0⟩ :=
      Nesting.step_outside (c := ' ') (by decide)
    have hjoin : join ", " (p :: q :: qs) = p ++ ',' :: ' ' :: join ", " (q :: qs) := by
      rw [join_cons _ _ (List.cons_ne_nil q qs), List.append_assoc]
      rfl
    rw [hjoin, splitWith_of_quiet ((hp.quiet b 0).mono Nesting.meets_of_separates), hb₁, splitWith,
      hcomma, splitWith, hspace, ih hqs]
    simp [Nesting.separates, Quoting.covers, Quoting.isOpen, Quoting.isQuote]

theorem topLevelParts_join {parts : List Text} (hlevel : ∀ p ∈ parts, Level p)
    (htidy : ∀ p ∈ parts, Tidy p) : topLevelParts (join ", " parts) = parts := by
  cases parts with
  | nil => rfl
  | cons p ps =>
    have htrim : ∀ q ∈ p :: ps, Text.trim q = q := fun q hq => trim_of_tidy (htidy q hq).tidyFrom
    have hspace : (ps.map (' ' :: ·)).map Text.trim = ps := by
      rw [List.map_map]
      refine (List.map_congr_left ?_).trans (List.map_id ps)
      intro q hq
      exact (trim_space q).trans (htrim q (List.mem_cons_of_mem p hq))
    have hnonempty : ∀ q ∈ p :: ps, (!q.isEmpty) = true := by
      intro q hq
      cases q with
      | nil => cases htidy [] hq true []
      | cons c q => rfl
    have hpieces := splitWith_separates_join hlevel .gap
    rw [topLevelParts, Nesting.start, Quoting.start, hpieces, List.map_cons, hspace,
      htrim p List.mem_cons_self]
    exact List.filter_eq_self.2 hnonempty

end SchemaDiagram.Sql
