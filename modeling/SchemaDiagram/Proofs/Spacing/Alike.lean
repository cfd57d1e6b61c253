import Mathlib.Data.List.TakeWhile
import SchemaDiagram.Proofs.Pieces
import SchemaDiagram.Sql.Comment
import SchemaDiagram.Sql.Keyword

/-!
Texts that differ only in how long their gaps are. A gap is a run of blanks, at the end of a text
also an empty one; where one text has a gap, a text `Alike` has one too. So every text is alike to
itself with its blanks collapsed, up to the blanks it begins with (`alike_collapse`).
-/

set_option autoImplicit false

namespace SchemaDiagram.Text
open Unicode Sql

variable {s t : Text} {b c d : Char}

theorem take_of_eq_append {u v : Text} (h : s = u ++ v) : s.take (s.length - v.length) = u := by
  rw [h, List.length_append, Nat.add_sub_cancel, List.take_left]

theorem words_blank (hb : isBlank b = true) (s : Text) : words (b :: s) = words s := by
  rw [words, splitAt_cons, if_pos hb]
  rfl

theorem words_solid_blank (hc : isBlank c = false) (hb : isBlank b = true) (s : Text) :
    words (c :: b :: s) = [c] :: words s := by
  rw [words, splitAt_cons, splitAt_cons, if_pos hb, if_neg (by simp [hc])]
  rfl

theorem words_solid_solid (hc : isBlank c = false) (hd : isBlank d = false) (s : Text) :
    ∃ w ws, words (d :: s) = w :: ws ∧ words (c :: d :: s) = (c :: w) :: ws := by
  obtain ⟨u, us, hu⟩ : ∃ u us, splitAt isBlank s = u :: us := ⟨_, _, rfl⟩
  refine ⟨d :: u, us.filter fun w => !w.isEmpty, ?_, ?_⟩
  · rw [words, splitAt_cons, if_neg (by simp [hd]), hu]
    rfl
  · rw [words, splitAt_cons, splitAt_cons, if_neg (by simp [hc]), if_neg (by simp [hd]), hu]
    rfl

theorem collapse_blank (hb : isBlank b = true) (s : Text) : collapse (b :: s) = collapse s := by
  rw [collapse, words_blank hb, collapse]

theorem collapse_eq_nil (hs : ∀ c ∈ s, isBlank c = true) : collapse s = [] := by
  induction s with
  | nil => rfl
  | cons b s ih =>
    obtain ⟨hb, hs⟩ := List.forall_mem_cons.1 hs
    rw [collapse_blank hb, ih hs]

theorem collapse_skipBlanks (s : Text) : collapse (skipBlanks s) = collapse s := by
  induction s with
  | nil => rfl
  | cons b s ih =>
    rw [skipBlanks, List.dropWhile_cons]
    split
    · rename_i hb
      rw [collapse_blank hb]
      exact ih
    · rfl

theorem collapse_ne_nil (hs : words s ≠ []) : collapse s ≠ [] := by
  obtain ⟨w, ws, hwords⟩ := List.exists_cons_of_ne_nil hs
  have hw : w ∈ words s := by simp [hwords]
  have hne : w ≠ [] := by simpa using (List.mem_filter.1 hw).2
  rw [collapse, hwords]
  cases ws with
  | nil => simpa [join] using hne
  | cons v vs =>
    rw [join_cons _ _ (List.cons_ne_nil v vs)]
    simp [hne]

theorem collapse_single (hc : isBlank c = false) : collapse [c] = [c] := by
  rw [collapse, words, splitAt_cons, if_neg (by simp [hc])]
  rfl

theorem collapse_solid_solid (hc : isBlank c = false) (hd : isBlank d = false) (s : Text) :
    collapse (c :: d :: s) = c :: collapse (d :: s) := by
  obtain ⟨w, ws, hrest, hall⟩ := words_solid_solid hc hd s
  rw [collapse, collapse, hrest, hall]
  cases ws with
  | nil => simp [join]
  | cons v vs =>
    rw [join_cons _ _ (List.cons_ne_nil v vs), join_cons _ _ (List.cons_ne_nil v vs)]
    rfl

theorem collapse_solid_blank (hc : isBlank c = false) (hb : isBlank b = true) (s : Text) :
    collapse (c :: b :: s) = if collapse s = [] then [c] else c :: ' ' :: collapse s := by
  rw [collapse, words_solid_blank hc hb]
  by_cases hwords : words s = []
  · have hempty : collapse s = [] := by
      rw [collapse, hwords]
      rfl
    rw [if_pos hempty, hwords]
    simp [join]
  · rw [if_neg (collapse_ne_nil hwords), join_cons _ _ hwords]
    rfl

theorem exists_collapse_solid (hc : isBlank c = false) (s : Text) :
    ∃ u, collapse (c :: s) = c :: u := by
  cases s with
  | nil => exact ⟨[], collapse_single hc⟩
  | cons d s =>
    by_cases hd : isBlank d = true
    · rw [collapse_solid_blank hc hd]
      split
      · exact ⟨[], rfl⟩
      · exact ⟨_, rfl⟩
    · exact ⟨_, collapse_solid_solid hc (by simpa using hd) s⟩

theorem isBlank_of_collapse_eq_nil (h : collapse s = []) : ∀ c ∈ s, isBlank c = true := by
  induction s with
  | nil => exact List.forall_mem_nil _
  | cons c s ih =>
    by_cases hc : isBlank c = true
    · rw [collapse_blank hc] at h
      exact List.forall_mem_cons.2 ⟨hc, ih h⟩
    · obtain ⟨u, hu⟩ := exists_collapse_solid (by simpa using hc) s
      rw [hu] at h
      cases h

theorem skipBlanks_solid (hc : isBlank c = false) (s : Text) : skipBlanks (c :: s) = c :: s :=
  List.dropWhile_cons_of_neg (by simp [hc])

theorem skipBlanks_blank (hb : isBlank b = true) (s : Text) : skipBlanks (b :: s) = skipBlanks s :=
  List.dropWhile_cons_of_pos hb

theorem skipBlanks_skipBlanks (s : Text) : skipBlanks (skipBlanks s) = skipBlanks s := by
  induction s with
  | nil => rfl
  | cons c s ih =>
    by_cases hc : isBlank c = true
    · rwa [skipBlanks_blank hc]
    · rw [skipBlanks_solid (by simpa using hc), skipBlanks_solid (by simpa using hc)]

theorem skipBlanks_collapse (s : Text) : skipBlanks (collapse s) = collapse s := by
  induction s with
  | nil => rfl
  | cons c s ih =>
    by_cases hc : isBlank c = true
    · rwa [collapse_blank hc]
    · have hc : isBlank c = false := by simpa using hc
      obtain ⟨u, hu⟩ := exists_collapse_solid hc s
      rw [hu, skipBlanks_solid hc]

theorem collapse_append_cons (hc : isBlank c = false) (s t : Text) :
    collapse (s ++ c :: t) = collapse (s ++ [c]) ++ (collapse (c :: t)).tail := by
  induction s with
  | nil =>
    obtain ⟨u, hu⟩ := exists_collapse_solid hc t
    rw [List.nil_append, List.nil_append, collapse_single hc, hu]
    rfl
  | cons d s ih =>
    by_cases hd : isBlank d = true
    · rw [List.cons_append, collapse_blank hd, List.cons_append, collapse_blank hd, ih]
    have hd : isBlank d = false := by simpa using hd
    cases s with
    | nil =>
      rw [List.cons_append, List.nil_append, collapse_solid_solid hd hc, List.cons_append,
        List.nil_append, collapse_solid_solid hd hc]
      exact congrArg (d :: ·) ih
    | cons e s =>
      simp only [List.cons_append] at ih ⊢
      by_cases he : isBlank e = true
      · rw [collapse_blank he, collapse_blank he] at ih
        have hend : collapse (s ++ [c]) ≠ [] := by
          intro hnil
          have hc' := isBlank_of_collapse_eq_nil hnil c (by simp)
          rw [hc] at hc'
          cases hc'
        rw [collapse_solid_blank hd he, collapse_solid_blank hd he, ih, if_neg (by simp [hend]),
          if_neg hend]
        rfl
      · have he : isBlank e = false := by simpa using he
        rw [collapse_solid_solid hd he, collapse_solid_solid hd he, ih]
        rfl

theorem ne_of_isBlank (hc : isBlank c = false) (hb : isBlank b = true) : b ≠ c := by
  rintro rfl
  rw [hc] at hb
  cases hb

theorem mem_skipBlanks_iff (hc : isBlank c = false) : c ∈ skipBlanks s ↔ c ∈ s := by
  refine ⟨fun h => List.dropWhile_subset _ h, fun h => ?_⟩
  rw [← List.takeWhile_append_dropWhile (p := isBlank) (l := s)] at h
  rcases List.mem_append.1 h with h | h
  · rw [List.mem_takeWhile_imp h] at hc
    cases hc
  · exact h

theorem trim_blank_append (hs : ∀ c ∈ s, isBlank c = true) (t : Text) : trim (s ++ t) = trim t := by
  rw [trim, trimStart, List.dropWhile_append_of_pos hs]
  rfl

theorem trim_append_blank (ht : ∀ c ∈ t, isBlank c = true) (s : Text) : trim (s ++ t) = trim s := by
  have hend : ∀ u : Text, trimEnd (u ++ t) = trimEnd u := by
    intro u
    rw [trimEnd, List.reverse_append, List.dropWhile_append_of_pos]
    · rfl
    · exact fun c hc => ht c (List.mem_reverse.1 hc)
  rw [trim, trimStart, List.dropWhile_append]
  split
  · rename_i hempty
    rw [List.dropWhile_eq_nil_iff.2 ht, trim, trimStart, List.isEmpty_iff.1 hempty]
  · exact hend _

inductive Alike : Text → Text → Prop where
  | ends {s t : Text} (hs : ∀ c ∈ s, isBlank c = true) (ht : ∀ c ∈ t, isBlank c = true) : Alike s t
  | solid {c : Char} {s t : Text} (hc : isBlank c = false) (h : Alike s t) : Alike (c :: s) (c :: t)
  | gap {b b' : Char} {s t : Text} (hb : isBlank b = true) (hb' : isBlank b' = true)
      (h : Alike (skipBlanks s) (skipBlanks t)) : Alike (b :: s) (b' :: t)

theorem isBlank_space : isBlank ' ' = true := by decide

theorem skipBlanks_eq_nil (hs : ∀ c ∈ s, isBlank c = true) : skipBlanks s = [] :=
  List.dropWhile_eq_nil_iff.2 hs

/-- Besides the blanks it begins with, a text is alike to itself with its blanks collapsed. -/
theorem alike_collapse : ∀ s : Text, Alike (skipBlanks s) (collapse s)
  | [] => .ends (List.forall_mem_nil _) (List.forall_mem_nil _)
  | c :: s => by
    by_cases hc : isBlank c = true
    · rw [skipBlanks_blank hc, collapse_blank hc]
      exact alike_collapse s
    have hc : isBlank c = false := by simpa using hc
    rw [skipBlanks_solid hc]
    match s with
    | [] =>
      rw [collapse_single hc]
      exact .solid hc (.ends (List.forall_mem_nil _) (List.forall_mem_nil _))
    | d :: s =>
      by_cases hd : isBlank d = true
      · rw [collapse_solid_blank hc hd]
        split
        · rename_i hempty
          have hblank := isBlank_of_collapse_eq_nil hempty
          exact .solid hc (.ends (List.forall_mem_cons.2 ⟨hd, hblank⟩) (List.forall_mem_nil _))
        · refine .solid hc (.gap hd isBlank_space ?_)
          rw [skipBlanks_collapse]
          exact alike_collapse s
      · have hd : isBlank d = false := by simpa using hd
        have hrest := alike_collapse (d :: s)
        rw [skipBlanks_solid hd] at hrest
        rw [collapse_solid_solid hc hd]
        exact .solid hc hrest

namespace Alike

theorem skipBlanks (h : Alike s t) : Alike (skipBlanks s) (skipBlanks t) := by
  cases h with
  | ends hs ht =>
    rw [skipBlanks_eq_nil hs, skipBlanks_eq_nil ht]
    exact .ends (List.forall_mem_nil _) (List.forall_mem_nil _)
  | solid hc h =>
    rw [skipBlanks_solid hc, skipBlanks_solid hc]
    exact .solid hc h
  | gap hb hb' h => rwa [skipBlanks_blank hb, skipBlanks_blank hb']

theorem collapse_eq (h : Alike s t) : collapse s = collapse t := by
  induction h with
  | ends hs ht => rw [collapse_eq_nil hs, collapse_eq_nil ht]
  | @solid c s t hc h ih =>
    -- How a character stands to what follows it depends on whether that is a gap.
    have hend : ∀ s : Text, (∀ c ∈ s, isBlank c = true) → collapse (c :: s) = [c] := by
      intro s hs
      cases s with
      | nil => exact collapse_single hc
      | cons b s =>
        obtain ⟨hb, hs⟩ := List.forall_mem_cons.1 hs
        rw [collapse_solid_blank hc hb, if_pos (collapse_eq_nil hs)]
    cases h with
    | ends hs ht => rw [hend s hs, hend t ht]
    | solid hd h => rw [collapse_solid_solid hc hd, collapse_solid_solid hc hd, ih]
    | gap hb hb' h =>
      rw [collapse_blank hb, collapse_blank hb'] at ih
      rw [collapse_solid_blank hc hb, collapse_solid_blank hc hb', ih]
  | gap hb hb' h ih =>
    rw [collapse_skipBlanks, collapse_skipBlanks] at ih
    rw [collapse_blank hb, collapse_blank hb', ih]

theorem mem_iff (h : Alike s t) (hc : isBlank c = false) : c ∈ s ↔ c ∈ t := by
  have hne : ∀ {b : Char}, isBlank b = true → c ≠ b := fun hb => (ne_of_isBlank hc hb).symm
  induction h with
  | ends hs ht => exact ⟨fun h => absurd rfl (hne (hs c h)), fun h => absurd rfl (hne (ht c h))⟩
  | solid _ _ ih =>
    rw [List.mem_cons, List.mem_cons]
    exact or_congr_right ih
  | @gap _ _ s t hb hb' _ ih =>
    rw [List.mem_cons, List.mem_cons, or_iff_right (hne hb), or_iff_right (hne hb'),
      ← mem_skipBlanks_iff hc, ← mem_skipBlanks_iff (s := t) hc]
    exact ih

theorem hasPair_blank {x y : Char} (hx : isBlank x = false) (hb : isBlank b = true) (s : Text) :
    hasPair x y (b :: s) = hasPair x y (Sql.skipBlanks s) := by
  induction s generalizing b with
  | nil => rfl
  | cons d s ih =>
    rw [hasPair]
    simp only [ne_of_isBlank hx hb, decide_false, Bool.false_and, Bool.false_or]
    by_cases hd : isBlank d = true
    · rw [ih hd, skipBlanks_blank hd]
    · rw [skipBlanks_solid (by simpa using hd)]

theorem hasPair_solid_blank {x y : Char} (hy : isBlank y = false) (hb : isBlank b = true) (c : Char)
    (s : Text) : hasPair x y (c :: b :: s) = hasPair x y (b :: s) := by
  rw [hasPair]
  simp only [ne_of_isBlank hy hb, decide_false, Bool.and_false, Bool.false_or]

theorem hasPair_eq (h : Alike s t) {x y : Char} (hx : isBlank x = false) (hy : isBlank y = false) :
    hasPair x y s = hasPair x y t := by
  have hend : ∀ s : Text, (∀ c ∈ s, isBlank c = true) → hasPair x y s = false := by
    intro s hs
    cases s with
    | nil => rfl
    | cons b s =>
      obtain ⟨hb, hs⟩ := List.forall_mem_cons.1 hs
      rw [hasPair_blank hx hb, skipBlanks_eq_nil hs]
      rfl
  have hlast : ∀ (c : Char) (s : Text), (∀ c ∈ s, isBlank c = true) →
      hasPair x y (c :: s) = false := by
    intro c s hs
    cases s with
    | nil => rfl
    | cons b s =>
      rw [hasPair_solid_blank hy (hs b List.mem_cons_self)]
      exact hend _ hs
  induction h with
  | ends hs ht => rw [hend _ hs, hend _ ht]
  | @solid c s t hc h ih =>
    cases h with
    | ends hs ht => rw [hlast c s hs, hlast c t ht]
    | solid hd h => rw [hasPair, hasPair, ih]
    | gap hb hb' h =>
      rw [hasPair_solid_blank hy hb, hasPair_solid_blank hy hb', ih]
  | gap hb hb' h ih => rw [hasPair_blank hx hb, hasPair_blank hx hb', ih]

end Alike

theorem alike_append_blank (ht : ∀ c ∈ t, isBlank c = true) (s : Text) : Alike s (s ++ t) := by
  induction s with
  | nil => exact .ends (List.forall_mem_nil _) ht
  | cons c s ih =>
    by_cases hc : isBlank c = true
    · exact .gap hc hc ih.skipBlanks
    · exact .solid (by simpa using hc) ih

theorem exists_padding (s : Text) : ∃ lead trail : Text, s = lead ++ (trim s ++ trail) ∧
    (∀ c ∈ lead, isBlank c = true) ∧ ∀ c ∈ trail, isBlank c = true := by
  refine ⟨s.takeWhile isBlank, ((trimStart s).reverse.takeWhile isBlank).reverse, ?_, ?_, ?_⟩
  · have hend : trim s ++ ((trimStart s).reverse.takeWhile isBlank).reverse = trimStart s := by
      rw [trim, trimEnd, ← List.reverse_append, List.takeWhile_append_dropWhile,
        List.reverse_reverse]
    rw [hend, trimStart, List.takeWhile_append_dropWhile]
  · exact fun c hc => List.mem_takeWhile_imp hc
  · exact fun c hc => List.mem_takeWhile_imp (List.mem_reverse.1 hc)

theorem trim_trim (s : Text) : trim (trim s) = trim s := by
  obtain ⟨lead, trail, hs, hlead, htrail⟩ := exists_padding s
  conv => rhs; rw [hs]
  rw [trim_blank_append hlead, trim_append_blank htrail]

theorem collapse_trim (s : Text) : collapse (trim s) = collapse s := by
  obtain ⟨lead, trail, hs, hlead, htrail⟩ := exists_padding s
  have hskip : skipBlanks s = skipBlanks (trim s ++ trail) := by
    conv => lhs; rw [hs]
    exact List.dropWhile_append_of_pos hlead
  rw [← collapse_skipBlanks s, hskip, collapse_skipBlanks]
  exact (alike_append_blank htrail _).collapse_eq

theorem collapse_collapse (s : Text) : collapse (collapse s) = collapse s := by
  rw [← (alike_collapse s).collapse_eq, collapse_skipBlanks]

theorem mem_collapse_iff (hc : isBlank c = false) : c ∈ collapse s ↔ c ∈ s :=
  ((alike_collapse s).mem_iff hc).symm.trans (mem_skipBlanks_iff hc)

theorem hasPair_collapse {x y : Char} (hx : isBlank x = false) (hy : isBlank y = false) (s : Text) :
    hasPair x y (collapse s) = hasPair x y s := by
  have hskip : hasPair x y (skipBlanks s) = hasPair x y s := by
    cases s with
    | nil => rfl
    | cons c s =>
      by_cases hc : isBlank c = true
      · rw [skipBlanks_blank hc, Alike.hasPair_blank hx hc]
      · rw [skipBlanks_solid (by simpa using hc)]
  rw [← (alike_collapse s).hasPair_eq hx hy, hskip]

end SchemaDiagram.Text
