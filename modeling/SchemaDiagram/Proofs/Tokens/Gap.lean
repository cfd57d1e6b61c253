import SchemaDiagram.Proofs.Boundary
import SchemaDiagram.Proofs.Tokens.LookAhead

/-!
Tokens in front of a gap. A blank or the mark of a comment belongs to no word and to no number, so a
token in front of it does not see what stands behind the gap, and the tokens up to the gap are the
same whatever follows it (`lex?_append_gap`).
-/

set_option autoImplicit false

namespace SchemaDiagram.Sql.Token
open Unicode Text

def opensGap (c : Char) : Bool := isBlank c || c = '-' || c = '/'

def GapFirst (g : Text) : Prop :=
  ∃ c r, g = c :: r ∧
    (isBlank c = true ∨ c = '-' ∧ r.head? = some '-' ∨ c = '/' ∧ r.head? = some '*')

def AlikeThrough (g z z' s s' : Text) : Prop := ∃ u, s = u ++ (g ++ z) ∧ s' = u ++ (g ++ z')

theorem opensGap_classes {c : Char} (hc : opensGap c = true) :
    (c.isDigit = false ∧ isHexDigit c = false ∧ isWordPart c = false) ∧
      c ∉ (['.', 'x', 'e', 'E', 'L', '+', '&', '\'', '"'] : Text) := by
  simp only [opensGap, Bool.or_eq_true, decide_eq_true_eq] at hc
  rcases hc with (hc | rfl) | rfl
  · exact of_isBlank
      (P := fun c => (c.isDigit = false ∧ isHexDigit c = false ∧ isWordPart c = false) ∧
        c ∉ (['.', 'x', 'e', 'E', 'L', '+', '&', '\'', '"'] : Text)) (by decide +kernel) hc
  · decide +kernel
  · decide +kernel

theorem GapFirst.exists_cons {g : Text} (hg : GapFirst g) :
    ∃ c r, g = c :: r ∧ opensGap c = true ∧ (c = '-' → r.head? = some '-') := by
  obtain ⟨c, r, rfl, hblank | ⟨rfl, hr⟩ | ⟨rfl, hr⟩⟩ := hg
  · refine ⟨c, r, rfl, by simp [opensGap, hblank], ?_⟩
    rintro rfl
    exact absurd hblank (by decide)
  · exact ⟨'-', r, rfl, rfl, fun _ => hr⟩
  · exact ⟨'/', r, rfl, rfl, nofun⟩

namespace AlikeThrough
variable {g z z' s s' : Text} (hg : GapFirst g)
include hg

theorem exists_cons (h : AlikeThrough g z z' s s') : ∃ c r r', s = c :: r ∧ s' = c :: r' := by
  obtain ⟨c, r, rfl, -, -⟩ := hg.exists_cons
  obtain ⟨u, rfl, rfl⟩ := h
  cases u with
  | nil => exact ⟨c, r ++ z, r ++ z', rfl, rfl⟩
  | cons d u => exact ⟨d, u ++ (c :: r ++ z), u ++ (c :: r ++ z'), rfl, rfl⟩

theorem head? (h : AlikeThrough g z z' s s') : s'.head? = s.head? := by
  obtain ⟨c, r, r', rfl, rfl⟩ := exists_cons hg h
  rfl

theorem tail {c d : Char} {r r' : Text} (h : AlikeThrough g z z' (c :: r) (d :: r'))
    (hc : opensGap c = false) : AlikeThrough g z z' r r' := by
  obtain ⟨e, v, rfl, he, -⟩ := hg.exists_cons
  obtain ⟨u, hs, hs'⟩ := h
  cases u with
  | nil =>
    obtain ⟨rfl, -⟩ := List.cons.inj hs
    rw [hc] at he
    cases he
  | cons f u => exact ⟨u, (List.cons.inj hs).2, (List.cons.inj hs').2⟩

theorem run {p : Char → Bool} (hp : ∀ c, opensGap c = true → p c = false)
    (h : AlikeThrough g z z' s s') : s'.takeWhile p = s.takeWhile p ∧
      AlikeThrough g z z' (s.drop (s.takeWhile p).length) (s'.drop (s.takeWhile p).length) := by
  induction s generalizing s' with
  | nil =>
    obtain ⟨c, r, r', hs, -⟩ := exists_cons hg h
    cases hs
  | cons c s ih =>
    obtain ⟨d, r, r', hs, rfl⟩ := exists_cons hg h
    obtain ⟨rfl, rfl⟩ := List.cons.inj hs
    by_cases hc : p c = true
    · have hopens : opensGap c = false := by
        refine Bool.eq_false_iff.2 fun hopens => ?_
        rw [hp c hopens] at hc
        cases hc
      obtain ⟨hrun, hdrop⟩ := ih (h.tail hg hopens)
      rw [List.takeWhile_cons_of_pos hc, List.takeWhile_cons_of_pos hc, hrun]
      exact ⟨rfl, hdrop⟩
    · rw [List.takeWhile_cons_of_neg hc, List.takeWhile_cons_of_neg hc]
      exact ⟨rfl, h⟩

theorem digits (h : AlikeThrough g z z' s s') : digitRun s' = digitRun s ∧
    AlikeThrough g z z' (s.drop (digitRun s)) (s'.drop (digitRun s)) := by
  obtain ⟨hrun, hdrop⟩ := h.run hg fun c hc => (opensGap_classes hc).1.1
  exact ⟨congrArg List.length hrun, hdrop⟩

/-- A hyphen may be the sign of an exponent, but not where it is the first of two. -/
theorem signed {c d : Char} {r r' : Text} (h : AlikeThrough g z z' (c :: r) (d :: r'))
    (hc : c = '+' ∨ c = '-') : digitRun r' = digitRun r ∧
      (digitRun r ≠ 0 → AlikeThrough g z z' (r.drop (digitRun r)) (r'.drop (digitRun r))) := by
  obtain ⟨e, v, rfl, he, hhyphen⟩ := hg.exists_cons
  obtain ⟨u, hs, hs'⟩ := h
  cases u with
  | nil =>
    obtain ⟨rfl, rfl⟩ := List.cons.inj hs
    obtain ⟨-, rfl⟩ := List.cons.inj hs'
    have hminus : c = '-' := by
      refine hc.resolve_left ?_
      rintro rfl
      exact (opensGap_classes he).2 (by decide)
    obtain ⟨v, rfl⟩ := List.head?_eq_some_iff.1 (hhyphen hminus)
    exact ⟨rfl, fun hne => absurd rfl hne⟩
  | cons f u =>
    have hrest : AlikeThrough (e :: v) z z' r r' := ⟨u, (List.cons.inj hs).2, (List.cons.inj hs').2⟩
    obtain ⟨hdigits, hdrop⟩ := hrest.digits hg
    exact ⟨hdigits, fun _ => hdrop⟩

theorem exponent (h : AlikeThrough g z z' s s') : exponentExtent s' = exponentExtent s ∧
    AlikeThrough g z z' (s.drop (exponentExtent s)) (s'.drop (exponentExtent s)) := by
  obtain ⟨e, t, t', rfl, rfl⟩ := exists_cons hg h
  by_cases he : (decide (e = 'e') || decide (e = 'E')) = true
  · have hopens : opensGap e = false := by
      simp only [Bool.or_eq_true, decide_eq_true_eq] at he
      rcases he with rfl | rfl
      · decide
      · decide
    have hrest := h.tail hg hopens
    obtain ⟨hdigits, hdrop⟩ := hrest.digits hg
    obtain ⟨c, r, r', rfl, rfl⟩ := exists_cons hg hrest
    simp only [exponentExtent, if_pos he]
    by_cases hc : (decide (c = '+') || decide (c = '-')) = true
    · have hsign : c = '+' ∨ c = '-' := by simpa using hc
      obtain ⟨hsame, hbehind⟩ := hrest.signed hg hsign
      rw [if_pos hc, if_pos hc, hsame]
      split
      · exact ⟨rfl, h⟩
      · rename_i hne
        exact ⟨rfl, hbehind hne⟩
    · rw [if_neg hc, if_neg hc, hdigits]
      split
      · exact ⟨rfl, h⟩
      · exact ⟨rfl, hdrop⟩
  · simp only [exponentExtent, if_neg he]
    exact ⟨trivial, h⟩

theorem drop_succ {c : Char} (h : AlikeThrough g z z' s s') (hhead : s.head? = some c)
    (hc : opensGap c = false) : AlikeThrough g z z' (s.drop 1) (s'.drop 1) := by
  obtain ⟨d, r, r', rfl, rfl⟩ := exists_cons hg h
  have hd : d = c := Option.some.inj hhead
  exact h.tail hg (hd ▸ hc)

theorem number (h : AlikeThrough g z z' s s') (c : Char) :
    numberExtent c s' = numberExtent c s := by
  have hhex : s.head? = some 'x' →
      (s'.drop 1).takeWhile isHexDigit = (s.drop 1).takeWhile isHexDigit := by
    intro hx
    exact ((h.drop_succ hg hx (by decide)).run hg fun c hc => (opensGap_classes hc).1.2.1).1
  obtain ⟨whole, hwhole⟩ : ∃ n, (if c = '.' then 0 else digitRun s) = n := ⟨_, rfl⟩
  obtain ⟨hwhole', hbehindWhole⟩ : (if c = '.' then 0 else digitRun s') = whole ∧
      AlikeThrough g z z' (s.drop whole) (s'.drop whole) := by
    rw [← hwhole]
    split
    · exact ⟨rfl, h⟩
    · exact h.digits hg
  obtain ⟨point, hpoint⟩ : ∃ n, (if (decide (c ≠ '.') &&
      decide ((s.drop whole).head? = some '.')) = true then whole + 1 else whole) = n := ⟨_, rfl⟩
  have hbehindPoint : AlikeThrough g z z' (s.drop point) (s'.drop point) := by
    rw [← hpoint]
    split
    · rename_i hdot
      have hdot := of_decide_eq_true (Bool.and_eq_true_iff.1 hdot).2
      have hsucc := hbehindWhole.drop_succ hg hdot (by decide)
      rwa [List.drop_drop, List.drop_drop] at hsucc
    · exact hbehindWhole
  obtain ⟨hdigits, hbehindDigits⟩ := hbehindPoint.digits hg
  obtain ⟨fraction, hfraction⟩ : ∃ n, point + (if (decide (c = '.') || decide (whole < point)) = true
      then digitRun (s.drop point) else 0) = n := ⟨_, rfl⟩
  have hbehindFraction : AlikeThrough g z z' (s.drop fraction) (s'.drop fraction) := by
    rw [← hfraction]
    split
    · rwa [List.drop_drop, List.drop_drop] at hbehindDigits
    · exact hbehindPoint
  obtain ⟨hexponent, hbehind⟩ := hbehindFraction.exponent hg
  rw [List.drop_drop, List.drop_drop] at hbehind
  simp only [numberExtent, longSuffix, hwhole', hwhole, h.head? hg, hbehindWhole.head? hg, hpoint,
    hdigits, hfraction, hexponent, hbehind.head? hg]
  split
  · rename_i hx
    have hx := of_decide_eq_true (Bool.and_eq_true_iff.1 hx).2
    rw [hhex hx]
  · rfl

theorem word (h : AlikeThrough g z z' s s') : wordExtent s' = wordExtent s := by
  rw [wordExtent, wordExtent, (h.run hg fun c hc => (opensGap_classes hc).1.2.2).1]

omit hg in
theorem exists_literal?_of_take {read : Text → Option Nat} (hread : LooksAhead 1 read) {q : Char}
    {r : Text} {lead : Nat} {kind : TokenKind} {n : Nat}
    (hliteral : literal? (lead + 1) (read r) = some (kind, n))
    (htake : (q :: r).take (n + 1) = s'.take (n + 1)) :
    ∃ r', s' = q :: r' ∧ literal? (lead + 1) (read r') = some (kind, n) := by
  obtain ⟨m, hm, hn⟩ := Option.map_eq_some_iff.1 hliteral
  obtain ⟨rfl, rfl⟩ := Prod.mk.inj hn
  obtain ⟨r', rfl, hrest⟩ := exists_cons_of_take htake
  refine ⟨r', rfl, ?_⟩
  rw [literal?, hread hm (take_of_take hrest (by omega))]
  rfl

theorem prefixed {c : Char} {kind : TokenKind} {n : Nat} (h : AlikeThrough g z z' s s')
    (hread : prefixedExtent? c s = some (kind, n)) (htake : s.take (n + 1) = s'.take (n + 1)) :
    prefixedExtent? c s' = some (kind, n) := by
  -- Both texts begin alike up to the gap, so no quote comes up in one of them alone.
  have hquote : ∀ {q : Char} {t : Text}, s' = q :: t → ∃ r, s = q :: r := by
    rintro q t rfl
    obtain ⟨d, r, r', rfl, hr⟩ := exists_cons hg h
    cases hr
    exact ⟨r, rfl⟩
  unfold prefixedExtent? at hread
  split at hread
  · rename_i hc
    obtain ⟨r, rfl, hr⟩ := exists_literal?_of_take (looksAhead_quotedExtent? _ _) hread htake
    simp only [prefixedExtent?, hc, hr]
  · rename_i hc
    obtain ⟨r, rfl, hr⟩ := exists_literal?_of_take (looksAhead_quotedExtent? _ _) hread htake
    simp only [prefixedExtent?, hc, hr]
  · rename_i hc
    obtain ⟨r, rfl, hr⟩ := exists_literal?_of_take (looksAhead_quotedExtent? _ _) hread htake
    simp only [prefixedExtent?, hc, hr]
  · rename_i hc
    obtain ⟨r, rfl, hr⟩ := exists_literal?_of_take
      (readsEscapes_escapeLiteralExtent?.looksAhead looksAhead_escapeExtent?) hread htake
    simp only [prefixedExtent?, hc, hr]
  · rename_i hc
    obtain ⟨m, hm, hn⟩ := Option.map_eq_some_iff.1 hread
    obtain ⟨rfl, rfl⟩ := Prod.mk.inj hn
    rw [show 2 + m + 1 = m + 1 + 2 by omega] at htake
    obtain ⟨r, rfl, hrest⟩ := exists_cons_cons_of_take htake
    have hr := readsEscapes_unicodeLiteralExtent?.looksAhead looksAhead_unicodeEscapeExtent? hm hrest
    simp only [prefixedExtent?, hc, hr]
    rfl
  · rename_i hc
    obtain ⟨r, rfl, hr⟩ := exists_literal?_of_take (looksAhead_quotedExtent? _ _) hread htake
    simp only [prefixedExtent?, hc, hr]
  · rename_i hb hb' hn he hu hx
    unfold prefixedExtent?
    split
    · rename_i hc
      obtain ⟨r, rfl⟩ := hquote rfl
      exact absurd rfl (hb r hc)
    · rename_i hc
      obtain ⟨r, rfl⟩ := hquote rfl
      exact absurd rfl (hb' r hc)
    · rename_i hc
      obtain ⟨r, rfl⟩ := hquote rfl
      exact absurd rfl (hn r hc)
    · rename_i hc
      obtain ⟨r, rfl⟩ := hquote rfl
      exact absurd rfl (he r hc)
    · rename_i hc
      obtain ⟨r, rfl⟩ := hquote rfl
      obtain ⟨d, t, t', rfl, ht⟩ := exists_cons hg (h.tail hg (by decide))
      cases ht
      exact absurd rfl (hu t hc)
    · rename_i hc
      obtain ⟨r, rfl⟩ := hquote rfl
      exact absurd rfl (hx r hc)
    · rw [h.word hg]
      exact hread

end AlikeThrough

theorem extent?_of_number {c : Char} (hc : (c.isDigit || c = '.') = true) (s : Text) :
    extent? c s = some (numberExtent c s) := by
  have hne : c ≠ '\'' ∧ c ≠ '"' ∧ c ≠ '$' := by
    refine ⟨?_, ?_, ?_⟩
    all_goals
      rintro rfl
      revert hc
      decide
  rw [extent?, if_neg hne.1, if_neg hne.2.1, if_neg hne.2.2, if_pos hc]

theorem extent?_of_word {c : Char} (hnumber : (c.isDigit || c = '.') = false)
    (hc : isWordStart c = true) (s : Text) : extent? c s = prefixedExtent? c s := by
  have hne : c ≠ '\'' ∧ c ≠ '"' ∧ c ≠ '$' ∧ c ≠ '-' ∧ c ≠ '/' := by
    refine ⟨?_, ?_, ?_, ?_, ?_⟩
    all_goals
      rintro rfl
      revert hc
      decide +kernel
  simp [extent?, hne, hnumber, hc]

/-- A token that ends in front of a gap does not see what stands behind the gap. -/
theorem extent?_append_gap {g z u : Text} (hg : GapFirst g) {c : Char} {kind : TokenKind} {n : Nat}
    (h : extent? c (u ++ (g ++ z)) = some (kind, n)) (hn : n ≤ u.length) (z' : Text) :
    extent? c (u ++ (g ++ z')) = some (kind, n) := by
  have halike : AlikeThrough g z z' (u ++ (g ++ z)) (u ++ (g ++ z')) := ⟨u, rfl, rfl⟩
  have htake : (u ++ (g ++ z)).take (n + 1) = (u ++ (g ++ z')).take (n + 1) := by
    obtain ⟨d, r, rfl, -, -⟩ := hg.exists_cons
    have hlong : n + 1 ≤ (u ++ [d]).length := by simpa using hn
    have hfirst : ∀ w : Text, (u ++ (d :: r ++ w)).take (n + 1) = (u ++ [d]).take (n + 1) := by
      intro w
      have hsplit : u ++ (d :: r ++ w) = u ++ [d] ++ (r ++ w) := by simp
      rw [hsplit, List.take_append_of_le_length hlong]
    rw [hfirst, hfirst]
  by_cases hnumber : (c.isDigit || c = '.') = true
  · rw [extent?_of_number hnumber] at h ⊢
    rw [halike.number hg]
    exact h
  have hnumber := Bool.eq_false_iff.2 hnumber
  by_cases hword : isWordStart c = true
  · rw [extent?_of_word hnumber hword] at h ⊢
    exact halike.prefixed hg h htake
  · exact extent?_of_take hnumber (Bool.eq_false_iff.2 hword) h htake

theorem lex?_of_extent? {c : Char} {v w : Text} {kind : TokenKind}
    (h : extent? c (v ++ w) = some (kind, v.length)) :
    lex? (c :: (v ++ w)) = (lex? w).map (⟨kind, c :: v⟩ :: ·) := by
  rw [lex?, h]
  simp only [Option.bind_eq_bind, Option.bind_some, List.drop_left, List.take_left]
  cases lex? w <;> rfl

theorem exists_of_lex?_cons {s w : Text} {t : Token} {ts : List Token}
    (h : lex? s = some (t :: ts)) (hs : s = t.text ++ w) :
    lex? w = some ts ∧ ∃ c v n, t.text = c :: v ∧ extent? c (v ++ w) = some (t.kind, n) ∧
      (n ≤ (v ++ w).length ∨ w ≠ [] → n = v.length) := by
  cases s with
  | nil =>
    rw [lex?] at h
    cases h
  | cons c s =>
    rw [lex?] at h
    simp only [Option.bind_eq_bind, Option.bind_eq_some_iff, Option.pure_def, Option.some.injEq,
      List.cons.injEq, Prod.exists] at h
    obtain ⟨kind, n, hextent, rest, hrest, rfl, rfl⟩ := h
    have hs : s = s.take n ++ w := (List.cons.inj hs).2
    have hdrop : s.drop n = w := List.append_cancel_left ((List.take_append_drop n s).trans hs)
    refine ⟨hdrop ▸ hrest, c, s.take n, n, rfl, by rwa [← hs], fun hw => ?_⟩
    rw [← hs] at hw
    have hn : n ≤ s.length := by
      refine hw.elim id fun hw => Nat.le_of_not_lt fun hlt => hw ?_
      rw [← hdrop, List.drop_eq_nil_of_le (Nat.le_of_lt hlt)]
    rw [List.length_take_of_le hn]

theorem lex?_behind {w : Text} {ts rest : List Token}
    (h : lex? (ts.flatMap text ++ w) = some (ts ++ rest)) : lex? w = some rest := by
  induction ts with
  | nil => exact h
  | cons t ts ih =>
    rw [List.flatMap_cons, List.append_assoc] at h
    exact ih (exists_of_lex?_cons h rfl).1

theorem lex?_append_gap {g z : Text} (hg : GapFirst g) {ts rest : List Token}
    (h : lex? (ts.flatMap text ++ (g ++ z)) = some (ts ++ rest)) (z' : Text) :
    lex? (ts.flatMap text ++ (g ++ z')) = (lex? (g ++ z')).map (ts ++ ·) := by
  induction ts with
  | nil => simp
  | cons t ts ih =>
    have hne : ts.flatMap text ++ (g ++ z) ≠ [] := by
      obtain ⟨d, r, rfl, -, -⟩ := hg.exists_cons
      simp
    rw [List.flatMap_cons, List.append_assoc] at h
    obtain ⟨hrest, c, v, n, htext, hextent, hn⟩ := exists_of_lex?_cons h rfl
    rw [hn (Or.inr hne), ← List.append_assoc] at hextent
    have hextent' := extent?_append_gap hg hextent (by simp) z'
    rw [List.append_assoc] at hextent'
    rw [List.flatMap_cons, htext, List.append_assoc, List.cons_append, lex?_of_extent? hextent',
      ih hrest, Option.map_map, ← htext]
    rfl

end SchemaDiagram.Sql.Token
