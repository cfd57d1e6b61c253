import SchemaDiagram.Proofs.Level
import SchemaDiagram.Proofs.Spacing.Statement

/-!
Parts of alike texts. A gap separates nothing and leaves the scan in one state, so it does not
matter whether blanks are collapsed before a text is cut at its commas or in each part afterwards
(`topLevelParts_collapse`).
-/

set_option autoImplicit false

namespace SchemaDiagram.Text
open Unicode Sql

variable {s t : Text} {b c : Char}

theorem words_append_blank (hb : isBlank b = true) (s t : Text) :
    words (s ++ b :: t) = words s ++ words t := by
  rw [words, splitAt_append_cons hb, List.filter_append]
  rfl

theorem words_ne_nil (hs : collapse s ≠ []) : words s ≠ [] := by
  intro hnil
  rw [collapse, hnil] at hs
  exact hs rfl

theorem join_append {separator : Text} {ps qs : List Text} (hp : ps ≠ []) (hq : qs ≠ []) :
    join separator (ps ++ qs) = join separator ps ++ (separator ++ join separator qs) := by
  induction ps with
  | nil => exact absurd rfl hp
  | cons p ps ih =>
    cases ps with
    | nil =>
      rw [List.singleton_append, join_cons separator p hq]
      simp [join]
    | cons q ps =>
      rw [List.cons_append, join_cons separator p (by simp), ih (List.cons_ne_nil q ps),
        join_cons separator p (List.cons_ne_nil q ps)]
      simp

theorem collapse_append_gap {gap : Text} (hs : collapse s ≠ []) (ht : collapse t ≠ [])
    (hne : gap ≠ []) (hgap : ∀ c ∈ gap, isBlank c = true) :
    collapse (s ++ (gap ++ t)) = collapse s ++ ' ' :: collapse t := by
  obtain ⟨b, gap, rfl⟩ := List.exists_cons_of_ne_nil hne
  obtain ⟨hb, hgap⟩ := List.forall_mem_cons.1 hgap
  have hskip : words (gap ++ t) = words t := by
    induction gap with
    | nil => rfl
    | cons d gap ih =>
      obtain ⟨hd, hgap⟩ := List.forall_mem_cons.1 hgap
      rw [List.cons_append, words_blank hd]
      exact ih (List.cons_ne_nil _ _) (List.forall_mem_cons.2 ⟨hb, hgap⟩) hgap
  rw [collapse, List.cons_append, words_append_blank hb, hskip,
    join_append (words_ne_nil hs) (words_ne_nil ht)]
  rfl

theorem exists_collapse_append (hc : isBlank c = false) (s : Text) :
    ∃ u, collapse (s ++ [c]) = u ++ [c] ∧ ∀ d ∈ u, d = ' ' ∨ d ∈ s := by
  have hweaken : ∀ {b : Char} {s u : Text}, (∀ d ∈ u, d = ' ' ∨ d ∈ s) →
      ∀ d ∈ u, d = ' ' ∨ d ∈ b :: s :=
    fun h d hd => (h d hd).imp_right (List.mem_cons_of_mem _)
  induction s with
  | nil => exact ⟨[], collapse_single hc, List.forall_mem_nil _⟩
  | cons b s ih =>
    obtain ⟨u, hu, hmem⟩ := ih
    by_cases hb : isBlank b = true
    · exact ⟨u, by rw [List.cons_append, collapse_blank hb, hu], hweaken hmem⟩
    have hb : isBlank b = false := by simpa using hb
    have hsolid : ∀ v, (∀ d ∈ v, d = ' ' ∨ d ∈ s) → ∀ d ∈ b :: v, d = ' ' ∨ d ∈ b :: s :=
      fun v hv => List.forall_mem_cons.2 ⟨.inr List.mem_cons_self, hweaken hv⟩
    cases s with
    | nil =>
      refine ⟨[b], ?_, hsolid [] (List.forall_mem_nil _)⟩
      rw [List.cons_append, List.nil_append, collapse_solid_solid hb hc, collapse_single hc]
    | cons e s =>
      by_cases he : isBlank e = true
      · have hne : collapse (s ++ [c]) ≠ [] := by
          rw [List.cons_append, collapse_blank he] at hu
          simp [hu]
        refine ⟨b :: ' ' :: u, ?_, hsolid (' ' :: u) (List.forall_mem_cons.2 ⟨.inl rfl, hmem⟩)⟩
        rw [List.cons_append, collapse_blank he] at hu
        rw [List.cons_append, List.cons_append, collapse_solid_blank hb he, if_neg hne, hu]
        rfl
      · have he : isBlank e = false := by simpa using he
        refine ⟨b :: u, ?_, hsolid u hmem⟩
        rw [List.cons_append, List.cons_append, collapse_solid_solid hb he, ← List.cons_append, hu]
        rfl

theorem exists_cons_collapse (hs : collapse s ≠ []) :
    ∃ c u, collapse s = c :: u ∧ isBlank c = false := by
  rw [← collapse_skipBlanks] at hs ⊢
  cases hskip : skipBlanks s with
  | nil =>
    rw [hskip] at hs
    exact absurd rfl hs
  | cons c r =>
    have hhead := List.head?_dropWhile_not isBlank s
    rw [← skipBlanks, hskip, List.head?_cons] at hhead
    obtain ⟨u, hu⟩ := exists_collapse_solid hhead r
    exact ⟨c, u, hu, hhead⟩

/-- Every blank is a space, and none follows another. The flag tells whether the place follows a
blank. -/
def thinFrom : Bool → Text → Bool
  | _, [] => true
  | afterBlank, c :: s =>
    if isBlank c then c = ' ' && !afterBlank && thinFrom true s else thinFrom false s

theorem thinFrom_collapse (afterBlank : Bool) : ∀ s : Text, thinFrom afterBlank (collapse s) = true
  | [] => rfl
  | c :: s => by
    by_cases hc : isBlank c = true
    · rw [collapse_blank hc]
      exact thinFrom_collapse afterBlank s
    have hc : isBlank c = false := by simpa using hc
    match s with
    | [] =>
      rw [collapse_single hc]
      simp [thinFrom, hc]
    | d :: s =>
      by_cases hd : isBlank d = true
      · have hrest := thinFrom_collapse true s
        rw [collapse_solid_blank hc hd]
        split
        · simp [thinFrom, hc]
        · simp [thinFrom, hc, isBlank_space, hrest]
      · have hrest := thinFrom_collapse false (d :: s)
        rw [collapse_solid_solid hc (by simpa using hd)]
        simpa [thinFrom, hc] using hrest

theorem trimEnd_solid (hc : isBlank c = false) (s : Text) : trimEnd (c :: s) = c :: trimEnd s := by
  rw [trimEnd, trimEnd, List.reverse_cons, List.dropWhile_append]
  split
  · rename_i hempty
    rw [List.isEmpty_iff.1 hempty]
    simp [hc]
  · simp

theorem trimEnd_cons (h : trimEnd s ≠ []) (c : Char) : trimEnd (c :: s) = c :: trimEnd s := by
  rw [trimEnd, List.reverse_cons, List.dropWhile_append, if_neg]
  · simp [trimEnd]
  · intro hempty
    rw [trimEnd, List.isEmpty_iff.1 hempty] at h
    exact h rfl

theorem trimEnd_of_thin : ∀ {s : Text}, thinFrom false s = true →
    (∀ c, s.head? = some c → isBlank c = false) → trimEnd s = collapse s
  | [], _, _ => rfl
  | [c], _, hhead => by
    have hc := hhead c rfl
    rw [collapse_single hc, trimEnd_solid hc]
    rfl
  | c :: d :: s, hthin, hhead => by
    have hc := hhead c rfl
    simp only [thinFrom, hc, Bool.false_eq_true, if_false] at hthin
    rw [trimEnd_solid hc]
    by_cases hd : isBlank d = true
    · simp only [hd, if_true, Bool.not_false, Bool.and_true, Bool.and_eq_true,
        decide_eq_true_eq] at hthin
      obtain ⟨rfl, hthin⟩ := hthin
      cases s with
      | nil => rw [collapse_solid_blank hc hd]; rfl
      | cons e s =>
        have he : isBlank e = false := by
          by_contra hblank
          simp [thinFrom, hblank] at hthin
        have hrest : trimEnd (e :: s) = collapse (e :: s) := by
          refine trimEnd_of_thin ?_ (by simp [he])
          simpa [thinFrom, he] using hthin
        obtain ⟨u, hu⟩ := exists_collapse_solid he s
        have hne : trimEnd (e :: s) ≠ [] := by simp [hrest, hu]
        rw [collapse_solid_blank hc hd, if_neg (by simp [hu]), trimEnd_cons hne, hrest]
    · have hd : isBlank d = false := by simpa using hd
      rw [collapse_solid_solid hc hd]
      refine congrArg (c :: ·) (trimEnd_of_thin ?_ (by simp [hd]))
      simpa [thinFrom, hd] using hthin

theorem trim_of_thin (h : thinFrom false s = true) : trim s = collapse s := by
  cases s with
  | nil => rfl
  | cons c s =>
    by_cases hc : isBlank c = true
    · simp only [thinFrom, hc, if_true, Bool.not_false, Bool.and_true, Bool.and_eq_true,
        decide_eq_true_eq] at h
      obtain ⟨rfl, h⟩ := h
      have hhead : ∀ d, s.head? = some d → isBlank d = false := by
        intro d hd
        cases s with
        | nil => cases hd
        | cons e s =>
          cases hd
          by_contra hblank
          simp [thinFrom, hblank] at h
      have hthin : thinFrom false s = true := by
        cases s with
        | nil => rfl
        | cons e s => simpa [thinFrom, hhead e rfl] using h
      rw [trim_space, collapse_blank hc, ← trimEnd_of_thin hthin hhead, trim, trimStart]
      cases s with
      | nil => rfl
      | cons e s => rw [List.dropWhile_cons_of_neg (by simp [hhead e rfl])]
    · have hc : isBlank c = false := by simpa using hc
      rw [trim, trimStart, List.dropWhile_cons_of_neg (by simp [hc]),
        trimEnd_of_thin h (by simp [hc])]

theorem trim_collapse (s : Text) : trim (collapse s) = collapse s := by
  rw [trim_of_thin (thinFrom_collapse false s), collapse_collapse]

theorem collapse_padded {lead trail : Text} (hlead : ∀ c ∈ lead, isBlank c = true)
    (htrail : ∀ c ∈ trail, isBlank c = true) (s : Text) :
    collapse (lead ++ (s ++ trail)) = collapse s := by
  rw [← collapse_trim, trim_blank_append hlead, trim_append_blank htrail, collapse_trim]

theorem collapse_eq_nil_iff : collapse s = [] ↔ trim s = [] := by
  constructor
  · intro h
    exact trim_append_blank (isBlank_of_collapse_eq_nil h) []
  · intro h
    rw [← collapse_trim, h]
    rfl

end SchemaDiagram.Text

namespace SchemaDiagram.Sql
open Text Unicode

variable {s t : Text} {n : Nesting}

def piecesFrom (n : Nesting) (s : Text) : List Text :=
  let pieces := splitWith Nesting.step Nesting.separates n s
  pieces.1 :: pieces.2

theorem piecesFrom_cons (n : Nesting) (c : Char) (s : Text) :
    piecesFrom n (c :: s) =
      if n.separates c then [] :: piecesFrom (n.step c) s
      else (piecesFrom (n.step c) s).modifyHead (c :: ·) := by
  by_cases h : n.separates c <;> simp [piecesFrom, splitWith, h]

theorem piecesFrom_of_quiet (hs : Quiet Nesting.step Nesting.separates n s) :
    piecesFrom n s = [s] := by
  have hpieces := splitWith_of_quiet hs []
  rw [List.append_nil] at hpieces
  rw [piecesFrom, hpieces]
  simp [splitWith]

namespace Nesting

theorem separates_iff : n.separates ',' = true ↔ n.quoting.isOpen = false ∧ n.depth = 0 := by
  have hquote : Quoting.isQuote ',' = false := by decide
  rw [separates, Quoting.covers, hquote]
  simp

theorem step_of_separates {c : Char} (h : n.separates c = true) : c = ',' ∧ n.step c = .start := by
  obtain rfl : c = ',' := by
    simp only [separates, Bool.and_eq_true, decide_eq_true_eq] at h
    exact h.1.2
  obtain ⟨hclosed, hdepth⟩ := separates_iff.1 h
  obtain ⟨quoting, depth⟩ := n
  obtain rfl : depth = 0 := hdepth
  cases quoting with
  | outside before =>
    have hcomma : isAlphanumeric ',' = false := by decide
    rw [step_outside (c := ',') (by decide)]
    simp [Quoting.Before.next, hcomma, start, Quoting.start]
  | plain quote => cases hclosed
  | escape => cases hclosed
  | escaped => cases hclosed

end Nesting

theorem piecesFrom_append (h : (s.foldl Nesting.step n).separates ',' = true) (t : Text) :
    piecesFrom n (s ++ ',' :: t) = piecesFrom n s ++ piecesFrom .start t := by
  induction s generalizing n with
  | nil =>
    have hn : n.separates ',' = true := h
    rw [List.nil_append, piecesFrom_cons, if_pos hn, (Nesting.step_of_separates hn).2]
    rfl
  | cons c s ih =>
    rw [List.cons_append, piecesFrom_cons, piecesFrom_cons, ih h]
    split
    · rfl
    · rfl

theorem Nesting.separates_blank (n : Nesting) {b : Char} (hb : isBlank b = true) :
    n.separates b = false := by
  simp [separates, ne_of_isBlank (c := ',') (by decide) hb]

theorem Nesting.settled_settled (n : Nesting) : n.settled.settled = n.settled := by
  rw [settled, settled, Quoting.settled_settled]

theorem piecesFrom_blank (n : Nesting) (hs : ∀ c ∈ s, isBlank c = true) : piecesFrom n s = [s] := by
  induction s generalizing n with
  | nil => rfl
  | cons b s ih =>
    obtain ⟨hb, hs⟩ := List.forall_mem_cons.1 hs
    rw [piecesFrom_cons, n.separates_blank hb, ih (n.step b) hs]
    rfl

theorem piecesFrom_gap (hn : n.quoting.Regular) {b : Char} (hb : isBlank b = true) (s : Text) :
    piecesFrom n (b :: s) =
      (piecesFrom n.settled (skipBlanks s)).modifyHead ((b :: s.takeWhile isBlank) ++ ·) := by
  induction s generalizing n b with
  | nil =>
    rw [piecesFrom_cons, n.separates_blank hb]
    rfl
  | cons c s ih =>
    rw [piecesFrom_cons, n.separates_blank hb, Nesting.step_blank hn hb]
    by_cases hc : isBlank c = true
    · have hrest := ih (n := n.settled) hn.settled hc
      rw [n.settled_settled] at hrest
      obtain ⟨p, ps, hpieces⟩ : ∃ p ps, piecesFrom n.settled (skipBlanks s) = p :: ps := ⟨_, _, rfl⟩
      rw [hrest, skipBlanks_blank hc, hpieces]
      simp [hc]
    · have hc : isBlank c = false := by simpa using hc
      simp [hc, skipBlanks_solid hc]

theorem forall₂_piecesFrom (h : Alike s t) (hn : n.quoting.Regular) :
    List.Forall₂ Alike (piecesFrom n s) (piecesFrom n t) := by
  induction h generalizing n with
  | ends hs ht =>
    rw [piecesFrom_blank n hs, piecesFrom_blank n ht]
    exact .cons (.ends hs ht) .nil
  | @solid c s t hc h ih =>
    have hrest := ih (n := n.step c) (hn.step c)
    rw [piecesFrom_cons, piecesFrom_cons]
    split
    · exact .cons (.ends (List.forall_mem_nil _) (List.forall_mem_nil _)) hrest
    · obtain ⟨hfirst, hothers⟩ := List.forall₂_cons.1 hrest
      exact .cons (.solid hc hfirst) hothers
  | @gap b b' s t hb hb' h ih =>
    have hskip : ∀ u v : Text, skipBlanks (u.takeWhile isBlank ++ v) = skipBlanks v :=
      fun u v => List.dropWhile_append_of_pos fun c => List.mem_takeWhile_imp
    rw [piecesFrom_gap hn hb, piecesFrom_gap hn hb']
    obtain ⟨hfirst, hothers⟩ := List.forall₂_cons.1 (ih (n := n.settled) hn.settled)
    refine .cons (.gap hb hb' ?_) hothers
    change Alike (skipBlanks (s.takeWhile isBlank ++ _)) (skipBlanks (t.takeWhile isBlank ++ _))
    rw [hskip, hskip]
    exact hfirst.skipBlanks

theorem thinFrom_of_mem_piecesFrom {b : Bool} (hs : thinFrom b s = true) :
    ∀ p ∈ piecesFrom n s, thinFrom false p = true := by
  have hweaken : ∀ {p : Text} {b : Bool}, thinFrom b p = true → thinFrom false p = true := by
    intro p b hp
    cases p with
    | nil => rfl
    | cons c p =>
      by_cases hc : isBlank c = true
      · simp only [thinFrom, hc, if_true, Bool.and_eq_true] at hp ⊢
        exact ⟨⟨hp.1.1, rfl⟩, hp.2⟩
      · simpa [thinFrom, hc] using hp
  have hall : ∃ p ps, piecesFrom n s = p :: ps ∧ thinFrom b p = true ∧
      ∀ q ∈ ps, thinFrom false q = true := by
    induction s generalizing n b with
    | nil => exact ⟨[], [], rfl, rfl, List.forall_mem_nil _⟩
    | cons c s ih =>
      rw [piecesFrom_cons]
      by_cases hc : isBlank c = true
      · simp only [thinFrom, hc, if_true, Bool.and_eq_true] at hs
        obtain ⟨p, ps, hpieces, hp, hps⟩ := ih (n := n.step c) hs.2
        rw [n.separates_blank hc, hpieces]
        refine ⟨c :: p, ps, rfl, ?_, hps⟩
        simp only [thinFrom, hc, if_true, hs.1, hp, Bool.and_self]
      · simp only [thinFrom, hc] at hs
        obtain ⟨p, ps, hpieces, hp, hps⟩ := ih (n := n.step c) hs
        rw [hpieces]
        split
        · exact ⟨[], p :: ps, rfl, rfl, List.forall_mem_cons.2 ⟨hp, hps⟩⟩
        · exact ⟨c :: p, ps, rfl, by simpa [thinFrom, hc] using hp, hps⟩
  obtain ⟨p, ps, hpieces, hp, hps⟩ := hall
  rw [hpieces]
  exact List.forall_mem_cons.2 ⟨hweaken hp, hps⟩

theorem topLevelParts_eq (s : Text) :
    topLevelParts s = ((piecesFrom .start s).map trim).filter fun p => !p.isEmpty := rfl

theorem exists_piecesFrom_skipBlanks (s : Text) : ∃ lead, (∀ c ∈ lead, isBlank c = true) ∧
    piecesFrom .start s = (piecesFrom .start (skipBlanks s)).modifyHead (lead ++ ·) := by
  have hnone : piecesFrom .start s = (piecesFrom .start s).modifyHead ([] ++ ·) := rfl
  cases s with
  | nil => exact ⟨[], List.forall_mem_nil _, hnone⟩
  | cons b s =>
    by_cases hb : isBlank b = true
    · refine ⟨b :: s.takeWhile isBlank, ?_, ?_⟩
      · exact List.forall_mem_cons.2 ⟨hb, fun c => List.mem_takeWhile_imp⟩
      · rw [skipBlanks_blank hb]
        exact piecesFrom_gap Quoting.regular_start hb s
    · rw [skipBlanks_solid (by simpa using hb)]
      exact ⟨[], List.forall_mem_nil _, hnone⟩

theorem map_piecesFrom_skipBlanks {f : Text → Text}
    (hf : ∀ lead p, (∀ c ∈ lead, isBlank c = true) → f (lead ++ p) = f p) (s : Text) :
    (piecesFrom .start (skipBlanks s)).map f = (piecesFrom .start s).map f := by
  obtain ⟨lead, hlead, hpieces⟩ := exists_piecesFrom_skipBlanks s
  obtain ⟨p, ps, hskipped⟩ : ∃ p ps, piecesFrom .start (skipBlanks s) = p :: ps := ⟨_, _, rfl⟩
  rw [hpieces, hskipped, List.modifyHead_cons, List.map_cons, List.map_cons, hf lead p hlead]

theorem topLevelParts_skipBlanks (s : Text) : topLevelParts (skipBlanks s) = topLevelParts s := by
  rw [topLevelParts_eq, topLevelParts_eq,
    map_piecesFrom_skipBlanks fun lead p hlead => trim_blank_append hlead p]

/-- The pieces of a text with its blanks collapsed are the pieces with their blanks collapsed, the
empty ones too. -/
theorem map_trim_piecesFrom_collapse (s : Text) :
    (piecesFrom .start (collapse s)).map trim = (piecesFrom .start s).map collapse := by
  have halike := forall₂_piecesFrom (n := .start) (alike_collapse s) Quoting.regular_start
  have hthin : ∀ p ∈ piecesFrom .start (collapse s), trim p = collapse p := fun p hp =>
    trim_of_thin (thinFrom_of_mem_piecesFrom (thinFrom_collapse false s) p hp)
  have hsame : (piecesFrom .start (skipBlanks s)).map collapse =
      (piecesFrom .start (collapse s)).map collapse := by
    rw [← List.forall₂_eq_eq_eq, List.forall₂_map_left_iff, List.forall₂_map_right_iff]
    exact halike.imp fun _ _ => Alike.collapse_eq
  have hlead : ∀ lead p : Text, (∀ c ∈ lead, isBlank c = true) →
      collapse (lead ++ p) = collapse p := by
    intro lead p hlead
    rw [← collapse_trim, trim_blank_append hlead, collapse_trim]
  rw [List.map_congr_left hthin, ← hsame, map_piecesFrom_skipBlanks hlead]

/-- Cutting a text at its commas and collapsing its blanks commute. -/
theorem topLevelParts_collapse (s : Text) :
    topLevelParts (collapse s) = (topLevelParts s).map collapse := by
  have hempty : ∀ p : Text, (!(trim p).isEmpty) = !(collapse p).isEmpty := by
    intro p
    rw [Bool.eq_iff_iff, Bool.not_eq_true', Bool.not_eq_true', List.isEmpty_eq_false_iff,
      List.isEmpty_eq_false_iff]
    exact not_congr collapse_eq_nil_iff.symm
  have hcollapse : collapse ∘ trim = collapse := funext collapse_trim
  rw [topLevelParts_eq, topLevelParts_eq, map_trim_piecesFrom_collapse, List.filter_map,
    List.filter_map, List.map_map, hcollapse]
  simp only [Function.comp_def, hempty]

theorem bodyFragments_eq (body : Text) : bodyFragments body = (topLevelParts body).map collapse :=
  topLevelParts_collapse body

end SchemaDiagram.Sql
