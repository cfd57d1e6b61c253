import Mathlib.Data.List.TakeWhile
import SchemaDiagram.Proofs.Tokens.Gap
import SchemaDiagram.Schema.Reading

/-!
Comments put into a text. Behind a gap a comment is a token of its own whatever it says, and the
tokens on both sides of it are those of the text without it, so that it leaves nothing behind but
the line break that ends it (`stripComments_insert`).
-/

set_option autoImplicit false

namespace SchemaDiagram.Sql
open Unicode Text

namespace Token

/-- A blank, a block comment, or a line comment whose line has ended. -/
def EndsGap (t : Token) : Prop :=
  t.kind = .blank ∨ t.kind = .blockComment ∨
    t.kind = .lineComment ∧ ∃ c, t.text.getLast? = some c ∧ isLineBreak c = true

def kept (ts : List Token) : Text := ts.flatMap fun t => t.lexeme.kept

@[simp] theorem kept_append (ts us : List Token) : kept (ts ++ us) = kept ts ++ kept us :=
  List.flatMap_append

@[simp] theorem kept_cons (t : Token) (ts : List Token) :
    kept (t :: ts) = t.lexeme.kept ++ kept ts :=
  List.flatMap_cons

@[simp] theorem kept_nil : kept [] = [] := rfl

theorem kept_blank (s : Text) : (Token.mk .blank s).lexeme.kept = s := rfl

theorem gap_of_extent? {c : Char} {s : Text} {kind : TokenKind} {n : Nat}
    (h : extent? c s = some (kind, n)) (hkind : ¬ IsSolid kind) :
    (kind = .lineComment ∧ c = '-' ∧ ∃ r, s = '-' :: r ∧ n = lineCommentExtent r + 1) ∨
      (kind = .blockComment ∧ c = '/' ∧ ∃ r m, s = '*' :: r ∧ blockExtent? 0 r = some m ∧
        n = m + 1) ∨
      (kind = .blank ∧ isBlank c = true ∧ n = if c = '\r' then oneOf ['\n'] s else 0) := by
  unfold extent? at h
  split at h
  · exact absurd (isSolid_of_literal? h) hkind
  split at h
  · exact absurd (isSolid_of_literal? h) hkind
  split at h
  · exact absurd (isSolid_of_dollarExtent? h) hkind
  split at h
  · have hnumber : (numberExtent c s).1 = kind := congrArg Prod.fst (Option.some.inj h)
    exact absurd (hnumber ▸ isSolid_numberExtent c s) hkind
  split at h
  · rename_i hmark
    simp only [Bool.and_eq_true, decide_eq_true_eq, List.head?_eq_some_iff] at hmark
    obtain ⟨rfl, r, rfl⟩ := hmark
    cases h
    exact Or.inl ⟨rfl, rfl, r, rfl, rfl⟩
  split at h
  · rename_i hmark
    simp only [Bool.and_eq_true, decide_eq_true_eq, List.head?_eq_some_iff] at hmark
    obtain ⟨rfl, r, rfl⟩ := hmark
    obtain ⟨m, hm, hn⟩ := Option.map_eq_some_iff.1 h
    cases hn
    exact Or.inr (Or.inl ⟨rfl, rfl, r, m, rfl, hm, rfl⟩)
  split at h
  · exact absurd (isSolid_of_prefixedExtent? h) hkind
  split at h
  · rename_i hc
    cases h
    subst hc
    exact Or.inr (Or.inr ⟨rfl, by decide, rfl⟩)
  rename_i hreturn
  split at h
  · rename_i hc
    cases h
    exact Or.inr (Or.inr ⟨rfl, hc, (if_neg hreturn).symm⟩)
  · cases h
    exact absurd (by simp [IsSolid, IsComment]) hkind

theorem extent?_of_isBlank {c : Char} (hc : isBlank c = true) (s : Text) :
    extent? c s = some (.blank, if c = '\r' then oneOf ['\n'] s else 0) := by
  obtain ⟨hnumber, hword, hmark⟩ : (c.isDigit || c = '.') = false ∧ isWordStart c = false ∧
      c ∉ (['\'', '"', '$', '-', '/'] : Text) :=
    of_isBlank (P := fun c => (c.isDigit || c = '.') = false ∧ isWordStart c = false ∧
      c ∉ (['\'', '"', '$', '-', '/'] : Text)) (by decide +kernel) hc
  simp only [List.mem_cons, List.not_mem_nil, or_false, not_or] at hmark
  simp only [extent?, hmark, hnumber, hword, decide_false, Bool.false_and, Bool.false_eq_true,
    if_false, hc, if_true]
  split <;> rfl

theorem blockExtent?_le {depth : Nat} {s : Text} {n : Nat} (h : blockExtent? depth s = some n) :
    n ≤ s.length := by
  fun_induction blockExtent? depth s generalizing n with
  | case1 => cases h
  | case3 =>
    cases h
    simp
  | case2 depth s ih =>
    obtain ⟨m, hm, rfl⟩ := Option.map_eq_some_iff.1 h
    simpa using ih hm
  | case4 s depth ih =>
    obtain ⟨m, hm, rfl⟩ := Option.map_eq_some_iff.1 h
    simpa using ih hm
  | case5 depth c s _ _ _ ih =>
    obtain ⟨m, hm, rfl⟩ := Option.map_eq_some_iff.1 h
    simpa using ih hm

theorem gap_le {c : Char} {s : Text} {kind : TokenKind} {n : Nat}
    (h : extent? c s = some (kind, n)) (hkind : ¬ IsSolid kind) : n ≤ s.length := by
  rcases gap_of_extent? h hkind with ⟨-, -, r, rfl, rfl⟩ | ⟨-, -, r, m, rfl, hm, rfl⟩ | ⟨-, -, rfl⟩
  · exact Nat.succ_le_succ (Nat.min_le_left _ _)
  · exact Nat.succ_le_succ (blockExtent?_le hm)
  · split
    · cases s with
      | nil => exact Nat.le_refl 0
      | cons d s =>
        rw [oneOf]
        split
        · exact Nat.succ_le_succ (Nat.zero_le _)
        · exact Nat.zero_le _
    · exact Nat.zero_le _

theorem lineCommentExtent_of_break {y : Text} (hy : ∀ c ∈ y, isLineBreak c = false) {b : Char}
    (hb : isLineBreak b = true) (z : Text) : lineCommentExtent (y ++ b :: z) = y.length + 1 := by
  have hrun : (y ++ b :: z).takeWhile (fun c => !isLineBreak c) = y := by
    rw [List.takeWhile_append_of_pos fun c hc => by simp [hy c hc]]
    simp [hb]
  rw [lineCommentExtent, hrun]
  simp

theorem lineCommentExtent_append {w z : Text} (h : lineCommentExtent (w ++ z) = w.length) {b : Char}
    (hlast : w.getLast? = some b) (hb : isLineBreak b = true) (z' : Text) :
    lineCommentExtent (w ++ z') = w.length := by
  obtain ⟨y, rfl⟩ := List.getLast?_eq_some_iff.1 hlast
  have hy : ∀ c ∈ y, isLineBreak c = false := by
    have hlength : y.length ≤ ((y ++ [b] ++ z).takeWhile fun c => !isLineBreak c).length := by
      simp only [lineCommentExtent, List.length_append, List.length_singleton] at h ⊢
      omega
    have hbegins : y <+: (y ++ [b] ++ z).takeWhile fun c => !isLineBreak c := by
      refine List.prefix_of_prefix_length_le ?_ (List.takeWhile_prefix _) hlength
      rw [List.append_assoc]
      exact List.prefix_append y _
    intro c hc
    simpa using List.mem_takeWhile_imp (hbegins.subset hc)
  rw [List.append_assoc, List.singleton_append, lineCommentExtent_of_break hy hb]
  simp

theorem blankExtent_append {c : Char} {v z z' : Text}
    (h : (if c = '\r' then oneOf ['\n'] (v ++ z) else 0) = v.length)
    (hz : z'.head? = some '\n' → c :: v ≠ ['\r']) :
    (if c = '\r' then oneOf ['\n'] (v ++ z') else 0) = v.length := by
  by_cases hc : c = '\r'
  · rw [if_pos hc] at h ⊢
    cases v with
    | nil =>
      cases z' with
      | nil => rfl
      | cons d z' =>
        have hd : d ≠ '\n' := by
          rintro rfl
          exact hz rfl (by rw [hc])
        simp [oneOf, hd]
    | cons d v => exact h
  · rwa [if_neg hc] at h ⊢

theorem EndsGap.not_isSolid {t : Token} (ht : t.EndsGap) : ¬ IsSolid t.kind := by
  rintro ⟨hcomment, hblank⟩
  rcases ht with hkind | hkind | ⟨hkind, -⟩
  · exact hblank hkind
  · exact hcomment (Or.inr hkind)
  · exact hcomment (Or.inl hkind)

/-- A token of a gap stays what it is, unless a line feed comes behind a carriage return. -/
theorem extent?_of_endsGap {t : Token} (ht : t.EndsGap) {c : Char} {v z : Text}
    (htext : t.text = c :: v) (h : extent? c (v ++ z) = some (t.kind, v.length)) {z' : Text}
    (hz : z'.head? = some '\n' → t.text ≠ ['\r']) :
    extent? c (v ++ z') = some (t.kind, v.length) := by
  rcases gap_of_extent? h ht.not_isSolid with
    ⟨hkind, rfl, r, hr, hn⟩ | ⟨hkind, rfl, r, m, hr, hm, hn⟩ | ⟨hkind, hc, hn⟩
  · obtain ⟨w, rfl⟩ : ∃ w, v = '-' :: w := by
      cases v with
      | nil => cases hn
      | cons e w => exact ⟨w, by rw [(List.cons.inj hr).1]⟩
    obtain ⟨-, rfl⟩ := List.cons.inj hr
    obtain ⟨b, hlast, hb⟩ : ∃ b, t.text.getLast? = some b ∧ isLineBreak b = true := by
      rcases ht with hblank | hblock | ⟨-, hlast⟩
      · cases hkind.symm.trans hblank
      · cases hkind.symm.trans hblock
      · exact hlast
    have hlast : w.getLast? = some b := by
      rw [htext] at hlast
      cases w with
      | nil =>
        cases hlast
        cases hb
      | cons d w => exact hlast
    have hend := lineCommentExtent_append (Nat.succ.inj hn).symm hlast hb z'
    rw [hkind, List.length_cons, ← hend]
    rfl
  · obtain ⟨w, rfl⟩ : ∃ w, v = '*' :: w := by
      cases v with
      | nil => cases hn
      | cons e w => exact ⟨w, by rw [(List.cons.inj hr).1]⟩
    obtain ⟨-, rfl⟩ := List.cons.inj hr
    obtain rfl : m = w.length := (Nat.succ.inj hn).symm
    have hend : blockExtent? 0 (w ++ z') = some w.length :=
      looksAhead_blockExtent? 0 hm (by simp)
    have hread : extent? '/' ('*' :: (w ++ z')) =
        (blockExtent? 0 (w ++ z')).map fun n => (.blockComment, n + 1) := rfl
    rw [hkind, List.cons_append, hread, hend]
    rfl
  · rw [extent?_of_isBlank hc, hkind, blankExtent_append hn.symm (htext ▸ hz)]

theorem EndsGap.gapFirst {t : Token} (ht : t.EndsGap) {c : Char} {v z : Text}
    (htext : t.text = c :: v) (h : extent? c (v ++ z) = some (t.kind, v.length)) :
    GapFirst t.text := by
  refine ⟨c, v, htext, ?_⟩
  rcases gap_of_extent? h ht.not_isSolid with
    ⟨-, rfl, r, hr, hn⟩ | ⟨-, rfl, r, m, hr, -, hn⟩ | ⟨-, hc, -⟩
  · cases v with
    | nil => cases hn
    | cons e w => exact Or.inr (Or.inl ⟨rfl, congrArg some (List.cons.inj hr).1⟩)
  · cases v with
    | nil => cases hn
    | cons e w => exact Or.inr (Or.inr ⟨rfl, congrArg some (List.cons.inj hr).1⟩)
  · exact Or.inl hc

/-- A text that ends with a gap is read in the same way in front of any text, and what follows the
gap as if it stood alone. -/
theorem lex?_concat_gap {ts post : List Token} {t : Token} {b : Text}
    (h : lex? ((ts ++ [t]).flatMap text ++ b) = some (ts ++ [t] ++ post)) (ht : t.EndsGap) :
    (∀ z, lex? ((ts ++ [t]).flatMap text ++ z) = (lex? (t.text ++ z)).map (ts ++ ·)) ∧
      ∀ z, (z.head? = some '\n' → t.text ≠ ['\r']) →
        lex? (t.text ++ z) = (lex? z).map (t :: ·) := by
  have htext : ∀ z, (ts ++ [t]).flatMap text ++ z = ts.flatMap text ++ (t.text ++ z) := by
    intro z
    simp
  rw [htext, List.append_assoc] at h
  obtain ⟨-, c, v, n, hcons, hextent, hn⟩ := exists_of_lex?_cons (lex?_behind h) rfl
  rw [hn (Or.inl (gap_le hextent ht.not_isSolid))] at hextent
  refine ⟨fun z => ?_, fun z hz => ?_⟩
  · rw [htext, lex?_append_gap (ht.gapFirst hcons hextent) h]
  · rw [hcons, List.cons_append, lex?_of_extent? (extent?_of_endsGap ht hcons hextent hz), ← hcons]

def EndWithGap (pre : List Token) : Prop := ∀ t, pre.getLast? = some t → t.EndsGap

section
variable {pre post : List Token} {b : Text}

theorem lex?_behind_gap (h : lex? (pre.flatMap text ++ b) = some (pre ++ post))
    (hgap : EndWithGap pre) {c : Char} (hc : c ≠ '\n') (s : Text) :
    lex? (pre.flatMap text ++ c :: s) = (lex? (c :: s)).map (pre ++ ·) := by
  rcases List.eq_nil_or_concat pre with rfl | ⟨ts, t, rfl⟩
  · simp
  rw [List.concat_eq_append] at h hgap ⊢
  obtain ⟨hfront, hbehind⟩ := lex?_concat_gap h (hgap t (by simp))
  rw [hfront, hbehind]
  · simp [Function.comp_def]
  · intro hhead
    exact absurd (Option.some.inj hhead) hc

theorem lex?_lineFeed (s : Text) : lex? ('\n' :: s) = (lex? s).map (⟨.blank, ['\n']⟩ :: ·) := by
  have hblank : extent? '\n' s = some (.blank, 0) := extent?_of_isBlank (by decide) s
  exact lex?_of_extent? (v := []) hblank

/-- A line feed behind a gap stays, as a token of its own or as the second half of a line break. -/
theorem exists_lex?_lineFeed (h : lex? (pre.flatMap text ++ b) = some (pre ++ post))
    (hgap : EndWithGap pre) :
    ∃ ts, lex? (pre.flatMap text ++ '\n' :: b) = some ts ∧
      kept ts = kept pre ++ '\n' :: kept post := by
  have hb := lex?_behind h
  rcases List.eq_nil_or_concat pre with rfl | ⟨ts, t, rfl⟩
  · refine ⟨⟨.blank, ['\n']⟩ :: post, ?_, rfl⟩
    rw [List.flatMap_nil, List.nil_append, lex?_lineFeed, hb]
    rfl
  rw [List.concat_eq_append] at h hgap ⊢
  obtain ⟨hfront, hbehind⟩ := lex?_concat_gap h (hgap t (by simp))
  by_cases ht : t.text = ['\r']
  · have hkind : t.kind = .blank := by
      rw [List.flatMap_append, List.flatMap_singleton, List.append_assoc, List.append_assoc] at h
      obtain ⟨-, c, v, n, hcons, hextent, -⟩ := exists_of_lex?_cons (lex?_behind h) rfl
      obtain ⟨rfl, -⟩ := List.cons.inj (ht.symm.trans hcons)
      rw [extent?_of_isBlank (by decide)] at hextent
      exact (Prod.mk.inj (Option.some.inj hextent)).1.symm
    have hread : lex? ('\r' :: '\n' :: b) = (lex? b).map (⟨.blank, ['\r', '\n']⟩ :: ·) :=
      lex?_of_extent? (v := ['\n']) (extent?_of_isBlank (by decide) _)
    have hkept : t.lexeme.kept = ['\r'] := by
      obtain ⟨kind, text⟩ := t
      cases hkind
      exact ht
    refine ⟨ts ++ ⟨.blank, ['\r', '\n']⟩ :: post, ?_, ?_⟩
    · rw [hfront, ht, List.singleton_append, hread, hb]
      rfl
    · simp [hkept, kept_blank]
  · refine ⟨ts ++ t :: ⟨.blank, ['\n']⟩ :: post, ?_, ?_⟩
    · rw [hfront, hbehind _ fun _ => ht, lex?_lineFeed, hb]
      rfl
    · simp [kept_blank]

end

theorem blockExtent?_of_plain {x : Text} (hx : ∀ c ∈ x, c ≠ '*' ∧ c ≠ '/') (s : Text) :
    blockExtent? 0 (x ++ '*' :: '/' :: s) = some (x.length + 2) := by
  induction x with
  | nil => rfl
  | cons c x ih =>
    obtain ⟨⟨hstar, hslash⟩, hx⟩ := List.forall_mem_cons.1 hx
    rw [List.cons_append, blockExtent?, ih hx]
    · rfl
    · exact fun _ hc => absurd hc hslash
    · exact fun _ _ hc => absurd hc hstar
    · exact fun _ _ _ hc => absurd hc hstar

theorem lex?_blockComment {x : Text} (hx : ∀ c ∈ x, c ≠ '*' ∧ c ≠ '/') (s : Text) :
    lex? ('/' :: '*' :: (x ++ '*' :: '/' :: s)) =
      (lex? s).map (⟨.blockComment, '/' :: '*' :: (x ++ ['*', '/'])⟩ :: ·) := by
  have hextent : extent? '/' ('*' :: (x ++ ['*', '/']) ++ s) =
      some (.blockComment, ('*' :: (x ++ ['*', '/'])).length) := by
    have hblock := blockExtent?_of_plain hx s
    have hread : extent? '/' ('*' :: (x ++ '*' :: '/' :: s)) =
        (blockExtent? 0 (x ++ '*' :: '/' :: s)).map fun n => (.blockComment, n + 1) := rfl
    simp only [List.cons_append, List.append_assoc, List.nil_append, hread, hblock,
      List.length_cons, List.length_append, List.length_nil]
    rfl
  have hlex := lex?_of_extent? hextent
  rwa [List.cons_append, List.append_assoc] at hlex

theorem lex?_lineComment {y : Text} (hy : ∀ c ∈ y, isLineBreak c = false) (s : Text) :
    lex? ('-' :: '-' :: (y ++ '\n' :: s)) =
      (lex? s).map (⟨.lineComment, '-' :: '-' :: (y ++ ['\n'])⟩ :: ·) := by
  have hextent : extent? '-' ('-' :: (y ++ ['\n']) ++ s) =
      some (.lineComment, ('-' :: (y ++ ['\n'])).length) := by
    have hline := lineCommentExtent_of_break hy (b := '\n') (by decide) s
    have hread : extent? '-' ('-' :: (y ++ '\n' :: s)) =
        some (.lineComment, lineCommentExtent (y ++ '\n' :: s) + 1) := rfl
    simp only [List.cons_append, List.append_assoc, List.nil_append, hread, hline,
      List.length_cons, List.length_append, List.length_nil]
  have hlex := lex?_of_extent? hextent
  rwa [List.cons_append, List.append_assoc] at hlex

theorem kept_lineComment {y : Text} (hy : ∀ c ∈ y, isLineBreak c = false) :
    (Token.mk .lineComment ('-' :: '-' :: (y ++ ['\n']))).lexeme.kept = ['\n'] := by
  have hrun : y.reverse.takeWhile isLineBreak = [] := by
    cases hreverse : y.reverse with
    | nil => rfl
    | cons c r =>
      have hc : c ∈ y := List.mem_reverse.1 (hreverse ▸ List.mem_cons_self)
      simp [hy c hc]
  have hbreak : isLineBreak '\n' = true := by decide
  have hkept : (Token.mk .lineComment ('-' :: '-' :: (y ++ ['\n']))).lexeme.kept =
      ((y ++ ['\n']).reverse.takeWhile isLineBreak).reverse := rfl
  rw [hkept, List.reverse_append, List.reverse_singleton, List.singleton_append,
    List.takeWhile_cons_of_pos hbreak, hrun]
  rfl

end Token

theorem map_lexeme_locate (l : Location) (ts : List Token) :
    (locate l ts).map (·.lexeme) = ts.map Token.lexeme := by
  induction ts generalizing l with
  | nil => rfl
  | cons t ts ih => rw [locate, List.map_cons, List.map_cons, ih]

theorem stripComments_of_lex? {sql : Text} {ts : List Token} (h : Token.lex? sql = some ts) :
    stripComments sql = Token.kept ts := by
  have hts : locatedTokens? sql = some (locate .start ts) := by
    rw [locatedTokens?, h]
    rfl
  have htext : (ts.map Token.lexeme).flatMap Lexeme.text = sql := by
    rw [← map_lexeme_locate .start, List.flatMap_map]
    exact tiles_locatedTokens? sql _ hts
  have hkept : (ts.map Token.lexeme).flatMap Lexeme.kept = Token.kept ts := List.flatMap_map _ _ _
  have hranges : commentRanges? (lines sql) (locate .start ts) =
      some (tokenRanges 0 (ts.map Token.lexeme)) := by
    rw [← map_lexeme_locate .start]
    exact @commentRanges?_eq_tokenRanges sql _ [] (tiles_locatedTokens? sql _ hts).symm
      (places_locatedTokens? sql _ hts)
  have hremoved := removeRanges?_tokenRanges (ts.map Token.lexeme) 0 []
  rw [List.nil_append, htext, hkept] at hremoved
  unfold stripComments stripCommentsBy
  split
  · simp only [hts, hranges, Option.bind_eq_bind, Option.bind_some]
    exact congrArg (Option.getD · _) hremoved
  · rename_i hmarks
    rw [← htext, Bool.not_eq_true] at hmarks
    rw [← hkept, flatMap_kept_of_unmarked (comment?_eq_none_of_unmarked hmarks), htext]

section
variable {pre post : List Token} {a b : Text}

theorem parse_of_stripComments {s t : Text} (h : stripComments s = stripComments t) (mode : Mode) :
    Schema.parse mode s = Schema.parse mode t := by
  rw [Schema.parse, Schema.parse, h]

/-- A comment that is put in behind a gap leaves nothing behind but its line break, whatever it
says, and the schema is the same. -/
theorem stripComments_insert (h : Token.lex? (a ++ b) = some (pre ++ post))
    (ha : pre.flatMap Token.text = a) (hgap : Token.EndWithGap pre) :
    (∀ x : Text, (∀ c ∈ x, c ≠ '*' ∧ c ≠ '/') →
      stripComments (a ++ "/*" ++ x ++ "*/" ++ b) = stripComments (a ++ b) ∧
        ∀ mode, Schema.parse mode (a ++ "/*" ++ x ++ "*/" ++ b) = Schema.parse mode (a ++ b)) ∧
    ∀ y : Text, (∀ c ∈ y, Token.isLineBreak c = false) →
      stripComments (a ++ "--" ++ y ++ "\n" ++ b) = stripComments (a ++ "\n" ++ b) ∧
        ∀ mode, Schema.parse mode (a ++ "--" ++ y ++ "\n" ++ b) =
          Schema.parse mode (a ++ "\n" ++ b) := by
  subst ha
  have hb := Token.lex?_behind h
  refine ⟨fun x hx => ?_, fun y hy => ?_⟩
  · have htext : pre.flatMap Token.text ++ "/*" ++ x ++ "*/" ++ b =
        pre.flatMap Token.text ++ '/' :: '*' :: (x ++ '*' :: '/' :: b) := by
      simp only [List.append_assoc]
      rfl
    have hlex := Token.lex?_behind_gap h hgap (c := '/') (by decide)
      ('*' :: (x ++ '*' :: '/' :: b))
    rw [Token.lex?_blockComment hx, hb, ← htext] at hlex
    have hstrip : stripComments (pre.flatMap Token.text ++ "/*" ++ x ++ "*/" ++ b) =
        stripComments (pre.flatMap Token.text ++ b) := by
      rw [stripComments_of_lex? hlex, stripComments_of_lex? h, Token.kept_append, Token.kept_append]
      rfl
    exact ⟨hstrip, parse_of_stripComments hstrip⟩
  · have htext : pre.flatMap Token.text ++ "--" ++ y ++ "\n" ++ b =
        pre.flatMap Token.text ++ '-' :: '-' :: (y ++ '\n' :: b) := by
      simp only [List.append_assoc]
      rfl
    have hfeed : pre.flatMap Token.text ++ "\n" ++ b = pre.flatMap Token.text ++ '\n' :: b := by
      rw [List.append_assoc]
      rfl
    have hlex := Token.lex?_behind_gap h hgap (c := '-') (by decide) ('-' :: (y ++ '\n' :: b))
    rw [Token.lex?_lineComment hy, hb, ← htext] at hlex
    -- Without the comment, its line break may be the second half of another one.
    obtain ⟨ts, hts, hkept⟩ := Token.exists_lex?_lineFeed h hgap
    have hstrip : stripComments (pre.flatMap Token.text ++ "--" ++ y ++ "\n" ++ b) =
        stripComments (pre.flatMap Token.text ++ "\n" ++ b) := by
      rw [stripComments_of_lex? hlex, hfeed, stripComments_of_lex? hts, hkept, Token.kept_append,
        Token.kept_cons, Token.kept_lineComment hy]
      rfl
    exact ⟨hstrip, parse_of_stripComments hstrip⟩

end

/-- Behind a comment whose hyphens could be the sign of an exponent, with quotes and marks in what
is put in. -/
theorem stripComments_insert_quotes :
    let a : Text := "1e--'n\r"
    let b : Text := "\n'x'"
    let pre : List Token := [⟨.number, "1"⟩, ⟨.word, "e"⟩, ⟨.lineComment, "--'n\r"⟩]
    Token.lex? (a ++ b) = some (pre ++ [⟨.blank, "\n"⟩, ⟨.literal, "'x'"⟩]) ∧
      pre.flatMap Token.text = a ∧ Token.EndWithGap pre ∧
      stripComments (a ++ "/*" ++ "' $CREATE TABLE b(" ++ "*/" ++ b) = "1e\r\n'x'".toList ∧
      stripComments (a ++ "--" ++ "it's $$ /*" ++ "\n" ++ b) = "1e\r\n\n'x'".toList := by
  intro a b pre
  have hlex : Token.lex? (a ++ b) = some (pre ++ [⟨.blank, "\n"⟩, ⟨.literal, "'x'"⟩]) := by
    decide +kernel
  have ha : pre.flatMap Token.text = a := by decide +kernel
  have hgap : Token.EndWithGap pre := by
    rintro t ht
    cases ht
    exact Or.inr (Or.inr ⟨rfl, '\r', rfl, rfl⟩)
  obtain ⟨hblock, hline⟩ := stripComments_insert hlex ha hgap
  refine ⟨hlex, ha, hgap, ?_, ?_⟩
  · exact (hblock "' $CREATE TABLE b(" (by decide)).1.trans (by decide +kernel)
  · exact (hline "it's $$ /*" (by decide)).1.trans (by decide +kernel)

end SchemaDiagram.Sql
