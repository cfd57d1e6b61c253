import SchemaDiagram.Proofs.Script.Word

set_option autoImplicit false

namespace SchemaDiagram.Script
open Sql Unicode Text

section
variable {stop : Nesting → Char → Bool} {d : Nat}

theorem foldl_doubled (s : Text) :
    (doubled s).foldl Nesting.step ⟨.plain '\'', d⟩ = ⟨.plain '\'', d⟩ := by
  induction s with
  | nil => rfl
  | cons c s ih =>
    by_cases hc : c = '\''
    · subst hc
      exact ih
    · have hstep : Nesting.step ⟨.plain '\'', d⟩ c = ⟨.plain '\'', d⟩ := by
        simp [Nesting.step, Quoting.step, Quoting.covers, Quoting.isOpen, hc]
      rw [doubled, if_neg hc, List.foldl_cons, hstep, ih]

theorem Literal.foldl (l : Literal) :
    l.text.foldl Nesting.step ⟨.outside .gap, d⟩ = ⟨.outside .gap, d⟩ := by
  have hopen : Nesting.step ⟨.outside .gap, d⟩ '\'' = ⟨.plain '\'', d⟩ := rfl
  rw [Literal.text, List.foldl_cons, List.foldl_append, hopen, foldl_doubled]
  rfl

section
variable (hstop : ∀ n c, n.quoting.covers c = true → stop n c = false)
include hstop

theorem quiet_doubled (s : Text) : Quiet Nesting.step stop ⟨.plain '\'', d⟩ (doubled s) := by
  induction s with
  | nil => trivial
  | cons c s ih =>
    by_cases hc : c = '\''
    · subst hc
      exact ⟨hstop _ _ rfl, hstop _ _ rfl, ih⟩
    · have hstep : Nesting.step ⟨.plain '\'', d⟩ c = ⟨.plain '\'', d⟩ := by
        simp [Nesting.step, Quoting.step, Quoting.covers, Quoting.isOpen, hc]
      rw [doubled, if_neg hc]
      refine ⟨hstop _ _ rfl, ?_⟩
      rw [hstep]
      exact ih

theorem Literal.quiet (l : Literal) : Quiet Nesting.step stop ⟨.outside .gap, d⟩ l.text := by
  have hopen : Nesting.step ⟨.outside .gap, d⟩ '\'' = ⟨.plain '\'', d⟩ := rfl
  refine ⟨hstop _ _ rfl, ?_⟩
  rw [hopen, quiet_append, foldl_doubled]
  exact ⟨quiet_doubled hstop l.content, hstop _ _ rfl, trivial⟩

end

end

theorem level_space_literal (l : Literal) : Level (' ' :: l.text) := by
  have hspace : ∀ b d, Nesting.step ⟨.outside b, d⟩ ' ' = ⟨.outside .gap, d⟩ := by
    intro b d
    rw [Nesting.step_outside (c := ' ') (by decide), Quoting.next_space]
    rfl
  refine ⟨?_, ?_⟩
  · intro b d
    refine ⟨by simp [Nesting.meets], ?_⟩
    rw [hspace]
    refine l.quiet ?_
    intro n c hcovers
    simp [Nesting.meets, hcovers]
  · intro b d
    rw [List.foldl_cons, hspace, l.foldl]
    exact ⟨.gap, rfl⟩

theorem Literal.mask_gaps (l : Literal) : ∀ c ∈ Quoting.mask l.text, isWordChar c = false := by
  have hquote : isWordChar '\'' = false := isWordChar_mark (by decide)
  have hinside : ∀ s, ∀ c ∈ (Quoting.plain '\'').maskFrom (doubled s ++ ['\'']),
      isWordChar c = false := by
    intro s
    induction s with
    | nil =>
      intro c hc
      rw [List.mem_singleton.1 hc]
      exact hquote
    | cons e s ih =>
      by_cases he : e = '\''
      · subst he
        intro c hc
        rcases List.mem_cons.1 hc with rfl | hc
        · exact hquote
        rcases List.mem_cons.1 hc with rfl | hc
        · exact hquote
        · exact ih c hc
      · have hstep : (Quoting.plain '\'').step e = .plain '\'' := by simp [Quoting.step, he]
        intro c hc
        rw [doubled, if_neg he, List.cons_append, Quoting.maskFrom, hstep] at hc
        rcases List.mem_append.1 hc with hc | hc
        · rw [List.eq_of_mem_replicate hc]
          exact isWordChar_space
        · exact ih c hc
  intro c hc
  rcases List.mem_cons.1 hc with rfl | hc
  · exact hquote
  · exact hinside l.content c hc

/-- The pair does not occur, and cannot occur across the beginning. -/
def Unpaired (a b : Char) (s : Text) : Prop := hasPair a b s = false ∧ s.head? ≠ some b

theorem hasPair_cons (a b c : Char) (s : Text) :
    hasPair a b (c :: s) = (decide (c = a ∧ s.head? = some b) || hasPair a b s) := by
  cases s with
  | nil => simp [hasPair]
  | cons d s => simp [hasPair]

section
variable {a b : Char}

theorem hasPair_append {s t : Text} (hs : hasPair a b s = false) (ht : Unpaired a b t) :
    hasPair a b (s ++ t) = false := by
  induction s with
  | nil => exact ht.1
  | cons c s ih =>
    rw [hasPair_cons, Bool.or_eq_false_iff, decide_eq_false_iff_not] at hs
    rw [List.cons_append, hasPair_cons, ih hs.2, Bool.or_false, decide_eq_false_iff_not]
    cases s with
    | nil => exact fun h => ht.2 h.2
    | cons d s => exact hs.1

theorem Unpaired.append {s t : Text} (hs : Unpaired a b s) (ht : Unpaired a b t) :
    Unpaired a b (s ++ t) := by
  refine ⟨hasPair_append hs.1 ht, ?_⟩
  cases s with
  | nil => exact ht.2
  | cons c s => exact hs.2

theorem unpaired_of_ne {s : Text} (h : ∀ c ∈ s, c ≠ b) : Unpaired a b s := by
  induction s with
  | nil => exact ⟨rfl, nofun⟩
  | cons c s ih =>
    obtain ⟨hpair, hhead⟩ := ih fun d hd => h d (List.mem_cons_of_mem c hd)
    refine ⟨?_, by simpa using h c List.mem_cons_self⟩
    rw [hasPair_cons, hpair, Bool.or_false, decide_eq_false_iff_not]
    exact fun hboth => hhead hboth.2

theorem head?_doubled (s : Text) : (doubled s).head? = s.head? := by
  cases s with
  | nil => rfl
  | cons c s => by_cases hc : c = '\'' <;> simp [doubled, hc]

theorem hasPair_doubled (ha : a ≠ '\'') {s : Text} (h : hasPair a b s = false) :
    hasPair a b (doubled s) = false := by
  induction s with
  | nil => rfl
  | cons c s ih =>
    rw [hasPair_cons, Bool.or_eq_false_iff] at h
    by_cases hc : c = '\''
    · subst hc
      simp [doubled, hasPair_cons, Ne.symm ha, ih h.2]
    · rw [doubled, if_neg hc, hasPair_cons, head?_doubled, h.1, ih h.2]
      rfl

theorem Literal.unpaired (l : Literal) (ha : a ≠ '\'') (hb : b ≠ '\'')
    (h : hasPair a b l.content = false) : Unpaired a b l.text := by
  have hclose : Unpaired a b ['\''] := unpaired_of_ne (by simpa using Ne.symm hb)
  have hinside := hasPair_append (hasPair_doubled ha h) hclose
  refine ⟨?_, by simpa [Literal.text] using Ne.symm hb⟩
  rw [Literal.text, hasPair_cons, hinside]
  simp [Ne.symm ha]

end

theorem tidyFrom_doubled {s : Text} (hspace : ∀ c ∈ s, isBlank c = true → c = ' ')
    (hsingle : hasPair ' ' ' ' s = false) {b : Bool} (hb : b = true → s.head? ≠ some ' ')
    (t : Text) : tidyFrom b (doubled s ++ '\'' :: t) = tidyFrom false t := by
  have hquote : isBlank '\'' = false := by decide
  -- The flag tells whether a space is just behind; then none may follow, by `hb`.
  induction s generalizing b with
  | nil => simp [doubled, tidyFrom, hquote]
  | cons c s ih =>
    have hspaces : ∀ d ∈ s, isBlank d = true → d = ' ' :=
      fun d hd => hspace d (List.mem_cons_of_mem c hd)
    have hoff : false = true → s.head? ≠ some ' ' := fun h => absurd h Bool.false_ne_true
    rw [hasPair_cons, Bool.or_eq_false_iff, decide_eq_false_iff_not] at hsingle
    by_cases hc : c = '\''
    · subst hc
      have hrest := ih hspaces hsingle.2 (b := false) hoff
      simpa [doubled, tidyFrom, hquote] using hrest
    · rw [doubled, if_neg hc, List.cons_append, tidyFrom]
      by_cases hblank : isBlank c = true
      · have hc := hspace c List.mem_cons_self hblank
        subst hc
        have hrest := ih hspaces hsingle.2 (b := true) fun _ hhead => hsingle.1 ⟨rfl, hhead⟩
        have hbefore : b = false := by simpa using hb
        rw [if_pos hblank, hrest, hbefore]
        rfl
      · rw [if_neg hblank]
        exact ih hspaces hsingle.2 hoff

theorem Literal.tidy (l : Literal) : Tidy l.text := by
  intro b t
  have hquote : isBlank '\'' = false := by decide
  have hinside := tidyFrom_doubled l.isSpace l.isSingle (b := false) nofun t
  rw [Literal.text, List.cons_append, List.append_assoc, tidyFrom]
  simpa [hquote] using hinside

theorem splitAt_doubled {s u : Text} {us : List Text}
    (h : splitAt (fun c => !isWordChar c) s = u :: us) :
    ∃ us', splitAt (fun c => !isWordChar c) (doubled s) = u :: us' ∧
      ∀ v ∈ us', v ∈ us ∨ v = [] := by
  have hquote : isWordChar '\'' = false := isWordChar_mark (by decide)
  induction s generalizing u us with
  | nil =>
    cases h
    exact ⟨[], rfl, nofun⟩
  | cons c s ih =>
    obtain ⟨v, vs, hv⟩ : ∃ v vs, splitAt (fun c => !isWordChar c) s = v :: vs := ⟨_, _, rfl⟩
    obtain ⟨vs', hvs', hmem⟩ := ih hv
    rw [splitAt_cons, hv] at h
    by_cases hc : c = '\''
    · subst hc
      rw [if_pos (by simp [hquote])] at h
      cases h
      refine ⟨[] :: v :: vs', ?_, ?_⟩
      · rw [doubled, if_pos rfl, splitAt_cons, splitAt_cons, hvs']
        simp [hquote]
      · intro w hw
        rcases List.mem_cons.1 hw with rfl | hw
        · exact .inr rfl
        rcases List.mem_cons.1 hw with rfl | hw
        · exact .inl List.mem_cons_self
        · exact (hmem w hw).imp_left (List.mem_cons_of_mem v)
    · rw [doubled, if_neg hc, splitAt_cons, hvs']
      by_cases hword : isWordChar c = true
      · rw [if_neg (by simp [hword])] at h ⊢
        cases h
        exact ⟨vs', rfl, hmem⟩
      · rw [if_pos (by simpa using hword)] at h ⊢
        cases h
        refine ⟨v :: vs', rfl, ?_⟩
        intro w hw
        rcases List.mem_cons.1 hw with rfl | hw
        · exact .inl List.mem_cons_self
        · exact (hmem w hw).imp_left (List.mem_cons_of_mem v)

theorem Literal.lacks (l : Literal) {w : Text} (hw : IsCapital w) (h : Lacks w l.content) :
    Lacks w l.text := by
  have hquote : isWordChar '\'' = false := isWordChar_mark (by decide)
  have hinside : Lacks w (doubled l.content) := by
    obtain ⟨u, us, hu⟩ : ∃ u us, splitAt (fun c => !isWordChar c) l.content = u :: us :=
      ⟨_, _, rfl⟩
    obtain ⟨us', hsplit, hmem⟩ := splitAt_doubled hu
    intro v hv
    rw [hsplit] at hv
    rcases List.mem_cons.1 hv with rfl | hv
    · exact h v (by simp [hu])
    rcases hmem v hv with hv | rfl
    · exact h v (by simp [hu, hv])
    · exact lacks_nil hw [] List.mem_cons_self
  rw [Literal.text, lacks_cons hw hquote, lacks_append_cons hquote]
  exact ⟨hinside, lacks_nil hw⟩

end SchemaDiagram.Script
