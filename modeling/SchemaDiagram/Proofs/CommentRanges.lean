import Mathlib.Data.List.Basic
import SchemaDiagram.Sql.Comment

/-!
Comments by their places. Of a tokenizer it is only taken that its tokens make up the text and that
each one begins at the line and column behind those before it. Then the place of every comment
leads back to its bytes, and what is removed is just these bytes (`commentRanges?_of_tiles`).
-/

set_option autoImplicit false

namespace SchemaDiagram.Sql
open Text

/-- The place behind a text: one line more than it has line feeds, and one column more than there
are characters since the last of them. -/
def Location.behind (s : Text) : Location where
  line := 1 + s.count '\n'
  column := 1 + (s.reverse.takeWhile (· ≠ '\n')).length

/-- What stays of a token when comments are removed: of a line comment, its line breaks. -/
def Lexeme.kept : Lexeme → Text
  | lineComment comment => (comment.reverse.takeWhile Token.isLineBreak).reverse
  | blockComment _ => []
  | other source => source

section
variable (tokenize? : Text → Option (List Located))

/-- The tokens of a text, one after the other, are the text. -/
def Tiles : Prop :=
  ∀ sql ts, tokenize? sql = some ts → ts.flatMap (fun t => t.lexeme.text) = sql

/-- Every token begins behind the tokens before it. -/
def Places : Prop :=
  ∀ sql ts, tokenize? sql = some ts → ∀ before t after, ts = before ++ t :: after →
    t.start = Location.behind (before.flatMap fun t => t.lexeme.text)

end

/-- The range begins and ends between characters of the text, with the given part between. -/
def ByteRange.Covers (sql : Text) (r : ByteRange) (part : Text) : Prop :=
  ∃ before after, sql = before ++ part ++ after ∧
    r.start = width before ∧ r.stop = width (before ++ part)

namespace Location

theorem exists_lastLine (s : Text) :
    '\n' ∉ s ∨ ∃ lead last, s = lead ++ '\n' :: last ∧ '\n' ∉ last := by
  induction s with
  | nil => exact Or.inl List.not_mem_nil
  | cons c s ih =>
    rcases ih with hs | ⟨lead, last, rfl, hlast⟩
    · by_cases hc : c = '\n'
      · exact Or.inr ⟨[], s, by rw [hc]; rfl, hs⟩
      · exact Or.inl (by simp [Ne.symm hc, hs])
    · exact Or.inr ⟨c :: lead, last, rfl, hlast⟩

theorem takeWhile_lastLine {last : Text} (h : '\n' ∉ last) (s : Text) :
    (last.reverse ++ s).takeWhile (· ≠ '\n') = last.reverse ++ s.takeWhile (· ≠ '\n') := by
  refine List.takeWhile_append_of_pos ?_
  intro c hc
  exact decide_eq_true fun hbreak => h (hbreak ▸ List.mem_reverse.1 hc)

theorem behind_of_not_mem {s : Text} (h : '\n' ∉ s) : behind s = ⟨1, 1 + s.length⟩ := by
  have hcolumn := takeWhile_lastLine h []
  rw [List.append_nil, List.takeWhile_nil, List.append_nil] at hcolumn
  rw [behind, hcolumn, List.count_eq_zero.2 h, List.length_reverse]

theorem behind_append_cons (lead : Text) {last : Text} (h : '\n' ∉ last) :
    behind (lead ++ '\n' :: last) = ⟨1 + (lead.count '\n' + 1), 1 + last.length⟩ := by
  have hcolumn : (lead ++ '\n' :: last).reverse.takeWhile (· ≠ '\n') = last.reverse := by
    rw [List.reverse_append, List.reverse_cons, List.append_assoc, takeWhile_lastLine h]
    simp
  rw [behind, hcolumn, List.count_append, List.count_cons_self, List.count_eq_zero.2 h,
    List.length_reverse]

theorem getElem?_laterLines (lead : Text) (offset : Nat) (s : Text) :
    (laterLines offset (lead ++ '\n' :: s))[lead.count '\n']? =
      some ⟨offset + width (lead ++ ['\n']), s⟩ := by
  induction lead generalizing offset with
  | nil => simp [laterLines, width]
  | cons c lead ih =>
    have hwidth : offset + c.utf8Size + width (lead ++ ['\n']) =
        offset + width (c :: lead ++ ['\n']) := by
      simp [width]
      omega
    rw [List.cons_append, laterLines]
    by_cases hc : c = '\n'
    · subst hc
      rw [if_pos rfl, List.count_cons_self, List.getElem?_cons_succ, ih, hwidth]
    · rw [if_neg hc, List.count_cons_of_ne hc, ih, hwidth]

/-- The place behind a text leads to the offset behind it. -/
theorem find?_behind (before : Text) (c : Char) (rest : Text) :
    (behind before).find? (lines (before ++ c :: rest)) = some (width before, c :: rest) := by
  rcases exists_lastLine before with h | ⟨lead, last, rfl, h⟩
  · rw [behind_of_not_mem h]
    simp [find?, lines]
  · rw [behind_append_cons lead h, List.append_assoc, List.cons_append]
    have hline := getElem?_laterLines lead 0 (last ++ c :: rest)
    simp [find?, lines, hline, width, Nat.add_assoc]

theorem step_behind (s : Text) (c : Char) : (behind s).step c = behind (s ++ [c]) := by
  by_cases hc : c = '\n'
  · simp [step, behind, hc, Nat.add_assoc]
  · have hcount : [c].count '\n' = 0 := List.count_eq_zero.2 (by simpa using Ne.symm hc)
    simp [step, behind, hc, hcount, Nat.add_assoc]

theorem after_behind (s t : Text) : (behind s).after t = behind (s ++ t) := by
  induction t generalizing s with
  | nil => simp [after]
  | cons c t ih =>
    have hcons : (behind s).after (c :: t) = ((behind s).step c).after t := rfl
    rw [hcons, step_behind, ih, List.append_assoc]
    rfl

end Location

namespace Lexeme

theorem text_eq (l : Lexeme) : l.text = l.comment?.getD [] ++ l.kept := by
  cases l with
  | lineComment comment =>
    have hsplit : (comment.reverse.dropWhile Token.isLineBreak).reverse ++
        (comment.reverse.takeWhile Token.isLineBreak).reverse = comment := by
      rw [← List.reverse_append, List.takeWhile_append_dropWhile, List.reverse_reverse]
    simp [text, comment?, kept, hsplit]
  | blockComment body => simp [text, comment?, kept]
  | other source => rfl

theorem exists_cons_of_comment? {l : Lexeme} {comment : Text} (h : l.comment? = some comment) :
    ∃ c d s, comment = c :: d :: s ∧ (c = '-' ∧ d = '-' ∨ c = '/' ∧ d = '*') := by
  cases l with
  | lineComment comment =>
    cases h
    exact ⟨'-', '-', _, rfl, Or.inl ⟨rfl, rfl⟩⟩
  | blockComment body =>
    cases h
    exact ⟨'/', '*', _, rfl, Or.inr ⟨rfl, rfl⟩⟩
  | other source => cases h

theorem width_pos_of_comment? {l : Lexeme} {comment : Text} (h : l.comment? = some comment) :
    0 < width comment := by
  obtain ⟨c, d, s, rfl, -⟩ := exists_cons_of_comment? h
  have hc := Char.utf8Size_pos c
  simp [width]
  omega

end Lexeme

def tokenRanges : Nat → List Lexeme → List ByteRange
  | _, [] => []
  | offset, l :: ls =>
    (l.comment?.map fun comment => ⟨offset, offset + width comment⟩).toList ++
      tokenRanges (offset + width l.text) ls

theorem commentRanges?_eq_tokenRanges {sql : Text} {ts : List Located} {before : Text}
    (hsql : sql = before ++ ts.flatMap fun t => t.lexeme.text)
    (hplaces : ∀ lead t after, ts = lead ++ t :: after →
      t.start = Location.behind (before ++ lead.flatMap fun t => t.lexeme.text)) :
    commentRanges? (lines sql) ts = some (tokenRanges (width before) (ts.map (·.lexeme))) := by
  induction ts generalizing before with
  | nil => rfl
  | cons t ts ih =>
    have hrest : commentRanges? (lines sql) ts =
        some (tokenRanges (width before + width t.lexeme.text) (ts.map (·.lexeme))) := by
      rw [← width_append]
      refine ih ?_ ?_
      · rw [hsql, List.flatMap_cons, List.append_assoc]
      · intro lead u after hts
        have := hplaces (t :: lead) u after (by rw [hts]; rfl)
        rwa [List.flatMap_cons, ← List.append_assoc] at this
    have hstart : t.start = Location.behind before := by
      have := hplaces [] t ts rfl
      rwa [List.flatMap_nil, List.append_nil] at this
    cases hcomment : t.lexeme.comment? with
    | none => simp [commentRanges?, tokenRanges, hcomment, hrest]
    | some comment =>
      obtain ⟨c, d, s, rfl, -⟩ := Lexeme.exists_cons_of_comment? hcomment
      have htext := t.lexeme.text_eq
      rw [hcomment, Option.getD_some] at htext
      have hfound : t.start.find? (lines sql) = some (width before, c :: (d :: s ++
          (t.lexeme.kept ++ ts.flatMap fun t => t.lexeme.text))) := by
        rw [hstart, hsql, List.flatMap_cons, htext, List.append_assoc]
        exact Location.find?_behind before c _
      simp [commentRanges?, tokenRanges, hcomment, hrest, hfound]

theorem le_start_of_mem_tokenRanges {offset : Nat} {ls : List Lexeme} {r : ByteRange}
    (h : r ∈ tokenRanges offset ls) : offset ≤ r.start ∧ r.start < r.stop := by
  induction ls generalizing offset with
  | nil => cases h
  | cons l ls ih =>
    rcases List.mem_append.1 h with h | h
    · obtain ⟨comment, hcomment, rfl⟩ := Option.map_eq_some_iff.1 (Option.mem_toList.1 h)
      have hpos := Lexeme.width_pos_of_comment? hcomment
      exact ⟨Nat.le_refl offset, by simp only; omega⟩
    · obtain ⟨hle, hlt⟩ := ih h
      exact ⟨by omega, hlt⟩

theorem pairwise_tokenRanges (offset : Nat) (ls : List Lexeme) :
    (tokenRanges offset ls).Pairwise fun p q => p.stop ≤ q.start := by
  induction ls generalizing offset with
  | nil => exact List.Pairwise.nil
  | cons l ls ih =>
    have htext := congrArg width l.text_eq
    rw [width_append] at htext
    refine List.pairwise_append.2 ⟨?_, ih _, ?_⟩
    · cases l.comment? <;> simp
    · intro p hp q hq
      obtain ⟨comment, hcomment, rfl⟩ := Option.map_eq_some_iff.1 (Option.mem_toList.1 hp)
      have hle := (le_start_of_mem_tokenRanges hq).1
      rw [hcomment, Option.getD_some] at htext
      simp only
      omega

theorem forall₂_tokenRanges {sql before : Text} {ls : List Lexeme}
    (hsql : sql = before ++ ls.flatMap Lexeme.text) :
    List.Forall₂ (ByteRange.Covers sql) (tokenRanges (width before) ls)
      (ls.filterMap Lexeme.comment?) := by
  induction ls generalizing before with
  | nil => exact List.Forall₂.nil
  | cons l ls ih =>
    have hnext : sql = before ++ l.text ++ ls.flatMap Lexeme.text := by
      rw [hsql, List.flatMap_cons, List.append_assoc]
    have hrest := ih hnext
    rw [width_append] at hrest
    cases hcomment : l.comment? with
    | none => simpa [tokenRanges, hcomment] using hrest
    | some comment =>
      rw [tokenRanges, hcomment, List.filterMap_cons_some hcomment]
      refine List.Forall₂.cons ?_ hrest
      refine ⟨before, l.kept ++ ls.flatMap Lexeme.text, ?_, rfl, (width_append _ _).symm⟩
      rw [hnext, l.text_eq, hcomment]
      simp

theorem removeRanges?_cons (offset : Nat) (ranges : List ByteRange) (lead part rest : Text) :
    removeRanges? offset
        (⟨offset + width lead, offset + width lead + width part⟩ :: ranges)
        (lead ++ (part ++ rest)) =
      (removeRanges? (offset + width lead + width part) ranges rest).map (lead ++ ·) := by
  have hstart : ¬ offset + width lead < offset := by omega
  have hlead : offset + width lead - offset = width lead := by omega
  have hpart : offset + width lead + width part - (offset + width lead) = width part := by omega
  simp only [removeRanges?, if_neg hstart, hlead, hpart, splitBytes?_width_append,
    dropBytes?_width_append, Option.bind_eq_bind, Option.bind_some]
  cases removeRanges? (offset + width lead + width part) ranges rest <;> rfl

/-- Removing the ranges keeps what stays of each token. The text from the last range to the next
token is collected in `pending`. -/
theorem removeRanges?_tokenRanges (ls : List Lexeme) (offset : Nat) (pending : Text) :
    removeRanges? offset (tokenRanges (offset + width pending) ls)
        (pending ++ ls.flatMap Lexeme.text) =
      some (pending ++ ls.flatMap Lexeme.kept) := by
  induction ls generalizing offset pending with
  | nil => simp [tokenRanges, removeRanges?]
  | cons l ls ih =>
    have htext := l.text_eq
    rw [List.flatMap_cons, List.flatMap_cons, tokenRanges]
    cases hcomment : l.comment? with
    | none =>
      rw [hcomment, Option.getD_none, List.nil_append] at htext
      have hpending := ih offset (pending ++ l.text)
      rw [width_append, ← Nat.add_assoc, List.append_assoc, List.append_assoc] at hpending
      rw [← htext]
      exact hpending
    | some comment =>
      rw [hcomment, Option.getD_some] at htext
      have hkept := ih (offset + width pending + width comment) l.kept
      rw [Nat.add_assoc _ (width comment), ← width_append, ← htext] at hkept
      rw [Option.map_some, Option.toList_some, List.singleton_append, htext, List.append_assoc,
        removeRanges?_cons, ← htext]
      rw [Nat.add_assoc, Nat.add_assoc] at hkept ⊢
      rw [hkept]
      rfl

theorem hasPair_between {a b : Char} (lead s : Text) : hasPair a b (lead ++ a :: b :: s) = true := by
  induction lead with
  | nil => simp [hasPair]
  | cons c lead ih =>
    cases lead with
    | nil => simp [hasPair]
    | cons d lead =>
      rw [List.cons_append, List.cons_append, hasPair, Bool.or_eq_true]
      exact Or.inr ih

theorem comment?_eq_none_of_unmarked {ls : List Lexeme}
    (h : (hasPair '-' '-' (ls.flatMap Lexeme.text) || hasPair '/' '*' (ls.flatMap Lexeme.text)) =
      false) : ∀ l ∈ ls, l.comment? = none := by
  intro l hl
  cases hcomment : l.comment? with
  | none => rfl
  | some comment =>
    obtain ⟨c, d, s, rfl, hmark⟩ := Lexeme.exists_cons_of_comment? hcomment
    obtain ⟨lead, after, rfl⟩ := List.append_of_mem hl
    have htext : (lead ++ l :: after).flatMap Lexeme.text = lead.flatMap Lexeme.text ++
        c :: d :: (s ++ (l.kept ++ after.flatMap Lexeme.text)) := by
      rw [List.flatMap_append, List.flatMap_cons, l.text_eq, hcomment]
      simp
    rw [htext, Bool.or_eq_false_iff] at h
    rcases hmark with ⟨rfl, rfl⟩ | ⟨rfl, rfl⟩
    · rw [hasPair_between] at h
      cases h.1
    · rw [hasPair_between] at h
      cases h.2

theorem flatMap_kept_of_unmarked {ls : List Lexeme} (h : ∀ l ∈ ls, l.comment? = none) :
    ls.flatMap Lexeme.kept = ls.flatMap Lexeme.text := by
  refine List.flatMap_congr ?_
  intro l hl
  rw [l.text_eq, h l hl]
  rfl

namespace Token

def IsComment (kind : TokenKind) : Prop := kind = .lineComment ∨ kind = .blockComment

def IsSolid (kind : TokenKind) : Prop := ¬ IsComment kind ∧ kind ≠ .blank

theorem lexeme_text_of_not_isComment {t : Token} (h : ¬ IsComment t.kind) :
    t.lexeme.text = t.text := by
  obtain ⟨kind, text⟩ := t
  cases kind with
  | lineComment => exact absurd (Or.inl rfl) h
  | blockComment => exact absurd (Or.inr rfl) h
  | _ => rfl

theorem isSolid_of_literal? {lead : Nat} {extent : Option Nat} {kind : TokenKind} {n : Nat}
    (h : literal? lead extent = some (kind, n)) : IsSolid kind := by
  simp only [literal?, Option.map_eq_some_iff, Prod.mk.injEq] at h
  obtain ⟨-, -, rfl, -⟩ := h
  simp [IsSolid, IsComment]

theorem isSolid_of_dollarExtent? {s : Text} {kind : TokenKind} {n : Nat}
    (h : dollarExtent? s = some (kind, n)) : IsSolid kind := by
  simp only [dollarExtent?] at h
  split at h
  · simp only [Option.bind_eq_bind, Option.bind_eq_some_iff, Option.pure_def, Option.some.injEq,
      Prod.mk.injEq] at h
    obtain ⟨-, -, rfl, -⟩ := h
    simp [IsSolid, IsComment]
  · cases h
    simp [IsSolid, IsComment]

theorem isSolid_numberExtent (c : Char) (s : Text) : IsSolid (numberExtent c s).1 := by
  have hnumber : IsSolid .number := by simp [IsSolid, IsComment]
  have hsymbol : IsSolid .symbol := by simp [IsSolid, IsComment]
  dsimp only [numberExtent]
  refine iteInduction (motive := fun found : TokenKind × Nat => IsSolid found.1)
    (fun _ => hnumber) fun _ => ?_
  exact iteInduction (motive := fun found : TokenKind × Nat => IsSolid found.1)
    (fun _ => hsymbol) fun _ => hnumber

theorem isSolid_of_prefixedExtent? {c : Char} {s : Text} {kind : TokenKind} {n : Nat}
    (h : prefixedExtent? c s = some (kind, n)) : IsSolid kind := by
  unfold prefixedExtent? at h
  split at h
  case h_7 =>
    cases h
    simp [IsSolid, IsComment]
  all_goals exact isSolid_of_literal? h

theorem exists_of_blockExtent? {depth : Nat} {s : Text} {n : Nat}
    (h : blockExtent? depth s = some n) : ∃ body, s.take n = body ++ ['*', '/'] := by
  fun_induction blockExtent? depth s generalizing n with
  | case1 => cases h
  | case2 depth s ih =>
    obtain ⟨m, hm, rfl⟩ := Option.map_eq_some_iff.1 h
    obtain ⟨body, hbody⟩ := ih hm
    exact ⟨'/' :: '*' :: body, by simp [hbody]⟩
  | case3 =>
    cases h
    exact ⟨[], rfl⟩
  | case4 s depth ih =>
    obtain ⟨m, hm, rfl⟩ := Option.map_eq_some_iff.1 h
    obtain ⟨body, hbody⟩ := ih hm
    exact ⟨'*' :: '/' :: body, by simp [hbody]⟩
  | case5 depth c s _ _ _ ih =>
    obtain ⟨m, hm, rfl⟩ := Option.map_eq_some_iff.1 h
    obtain ⟨body, hbody⟩ := ih hm
    exact ⟨c :: body, by simp [hbody]⟩

theorem lexeme_text_of_extent? {c : Char} {s : Text} {kind : TokenKind} {n : Nat}
    (h : extent? c s = some (kind, n)) :
    (Token.mk kind (c :: s.take n)).lexeme.text = c :: s.take n := by
  have hplain : ¬ IsComment kind → (Token.mk kind (c :: s.take n)).lexeme.text = c :: s.take n :=
    fun hkind => lexeme_text_of_not_isComment hkind
  unfold extent? at h
  split at h
  · exact hplain (isSolid_of_literal? h).1
  split at h
  · exact hplain (isSolid_of_literal? h).1
  split at h
  · exact hplain (isSolid_of_dollarExtent? h).1
  split at h
  · have hkind : (numberExtent c s).1 = kind := congrArg Prod.fst (Option.some.inj h)
    exact hplain (hkind ▸ (isSolid_numberExtent c s).1)
  split at h
  · rename_i hmark
    simp only [Bool.and_eq_true, decide_eq_true_eq, List.head?_eq_some_iff] at hmark
    obtain ⟨rfl, t, rfl⟩ := hmark
    cases h
    rfl
  split at h
  · rename_i hmark
    simp only [Bool.and_eq_true, decide_eq_true_eq, List.head?_eq_some_iff] at hmark
    obtain ⟨rfl, t, rfl⟩ := hmark
    obtain ⟨m, hm, hkind⟩ := Option.map_eq_some_iff.1 h
    cases hkind
    obtain ⟨body, hbody⟩ := exists_of_blockExtent? hm
    rw [List.drop_succ_cons, List.drop_zero] at hbody
    simp [lexeme, Lexeme.text, hbody]
  split at h
  · exact hplain (isSolid_of_prefixedExtent? h).1
  split at h
  · cases h
    exact hplain (by simp [IsComment])
  split at h
  · cases h
    exact hplain (by simp [IsComment])
  · cases h
    exact hplain (by simp [IsComment])

theorem lexeme_text_of_lex? {s : Text} {ts : List Token} (h : lex? s = some ts) :
    ∀ t ∈ ts, t.lexeme.text = t.text := by
  fun_induction lex? s generalizing ts with
  | case1 =>
    cases h
    exact List.forall_mem_nil _
  | case2 c s ih =>
    simp only [Option.bind_eq_bind, Option.bind_eq_some_iff, Option.pure_def,
      Option.some.injEq] at h
    obtain ⟨⟨kind, n⟩, hextent, rest, hrest, rfl⟩ := h
    exact List.forall_mem_cons.2 ⟨lexeme_text_of_extent? hextent, ih n hrest⟩

end Token

theorem flatMap_text_locate {ts : List Token} (h : ∀ t ∈ ts, t.lexeme.text = t.text)
    (l : Location) : (locate l ts).flatMap (fun t => t.lexeme.text) = ts.flatMap Token.text := by
  induction ts generalizing l with
  | nil => rfl
  | cons t ts ih =>
    rw [locate, List.flatMap_cons, List.flatMap_cons, h t List.mem_cons_self,
      ih fun u hu => h u (List.mem_cons_of_mem t hu)]

theorem start_of_mem_locate {ts : List Token} (h : ∀ t ∈ ts, t.lexeme.text = t.text) (s : Text)
    {lead after : List Located} {t : Located}
    (hts : locate (Location.behind s) ts = lead ++ t :: after) :
    t.start = Location.behind (s ++ lead.flatMap fun t => t.lexeme.text) := by
  induction ts generalizing s lead with
  | nil => simp [locate] at hts
  | cons u ts ih =>
    rw [locate, Location.after_behind] at hts
    cases lead with
    | nil =>
      cases hts
      rw [List.flatMap_nil, List.append_nil]
    | cons v lead =>
      obtain ⟨rfl, hrest⟩ := List.cons.inj hts
      have := ih (fun w hw => h w (List.mem_cons_of_mem u hw)) (s ++ u.text) hrest
      rwa [List.append_assoc, ← h u List.mem_cons_self] at this

theorem tiles_locatedTokens? : Tiles locatedTokens? := by
  intro sql ts hts
  obtain ⟨tokens, htokens, rfl⟩ := Option.map_eq_some_iff.1 hts
  rw [flatMap_text_locate (Token.lexeme_text_of_lex? htokens), Token.flatMap_text_of_lex? htokens]

theorem places_locatedTokens? : Places locatedTokens? := by
  intro sql ts hts lead t after hsplit
  obtain ⟨tokens, htokens, rfl⟩ := Option.map_eq_some_iff.1 hts
  have hstart : Location.start = Location.behind [] := rfl
  rw [hstart] at hsplit
  exact start_of_mem_locate (Token.lexeme_text_of_lex? htokens) [] hsplit

section
variable {tokenize? : Text → Option (List Located)}

/-- Every comment of a text that is read as tokens is found at its place, the ranges ascend without
meeting each other, and all else stays as it is. -/
theorem commentRanges?_of_tiles (htiles : Tiles tokenize?) (hplaces : Places tokenize?)
    {sql : Text} {ts : List Located} (hts : tokenize? sql = some ts) :
    (∃ ranges, commentRanges? (lines sql) ts = some ranges ∧
      List.Forall₂ (ByteRange.Covers sql) ranges (ts.filterMap fun t => t.lexeme.comment?) ∧
      (∀ r ∈ ranges, r.start < r.stop) ∧ (ranges.Pairwise fun p q => p.stop ≤ q.start) ∧
      removeRanges? 0 ranges sql = some (ts.flatMap fun t => t.lexeme.kept)) ∧
    stripCommentsBy tokenize? sql = ts.flatMap fun t => t.lexeme.kept := by
  have htext : (ts.map (·.lexeme)).flatMap Lexeme.text = sql := by
    rw [List.flatMap_map]
    exact htiles sql ts hts
  have hkept : (ts.map (·.lexeme)).flatMap Lexeme.kept = ts.flatMap fun t => t.lexeme.kept := by
    rw [List.flatMap_map]
  have hranges : commentRanges? (lines sql) ts = some (tokenRanges 0 (ts.map (·.lexeme))) :=
    @commentRanges?_eq_tokenRanges sql ts [] (htiles sql ts hts).symm (hplaces sql ts hts)
  have hremoved := removeRanges?_tokenRanges (ts.map (·.lexeme)) 0 []
  rw [List.nil_append, htext, hkept] at hremoved
  refine ⟨⟨_, hranges, ?_, ?_, pairwise_tokenRanges 0 _, hremoved⟩, ?_⟩
  · have hcovers := @forall₂_tokenRanges sql [] _ htext.symm
    rwa [List.filterMap_map] at hcovers
  · exact fun r hr => (le_start_of_mem_tokenRanges hr).2
  · unfold stripCommentsBy
    split
    · simp only [hts, hranges, Option.bind_eq_bind, Option.bind_some]
      exact congrArg (Option.getD · _) hremoved
    · rename_i hmarks
      rw [← htext, Bool.not_eq_true] at hmarks
      rw [← hkept, flatMap_kept_of_unmarked (comment?_eq_none_of_unmarked hmarks), htext]

end

/-- A line comment before CR, a block comment over two lines, one at the end of the text, and
marks in a literal and between dollar signs. -/
theorem commentRanges?_of_mixed_comments :
    let sql : Text := "é -- a\r\n'--' /* é\n */$$/*$$--"
    let ts : List Located := [
      ⟨.other "é", 1, 1⟩, ⟨.other " ", 1, 2⟩, ⟨.lineComment " a\r", 1, 3⟩, ⟨.other "\n", 1, 8⟩,
      ⟨.other "'--'", 2, 1⟩, ⟨.other " ", 2, 5⟩, ⟨.blockComment " é\n ", 2, 6⟩,
      ⟨.other "$$/*$$", 3, 4⟩, ⟨.lineComment "", 3, 10⟩]
    Tiles locatedTokens? ∧ Places locatedTokens? ∧ locatedTokens? sql = some ts ∧
      (∃ ranges, commentRanges? (lines sql) ts = some ranges ∧
        List.Forall₂ (ByteRange.Covers sql) ranges ["-- a", "/* é\n */", "--"] ∧
        (∀ r ∈ ranges, r.start < r.stop) ∧ (ranges.Pairwise fun p q => p.stop ≤ q.start) ∧
        removeRanges? 0 ranges sql = some "é \r\n'--' $$/*$$".toList) ∧
      stripCommentsBy locatedTokens? sql = "é \r\n'--' $$/*$$".toList := by
  intro sql ts
  have hts : locatedTokens? sql = some ts := by decide +kernel
  have hcomments : (ts.filterMap fun t => t.lexeme.comment?) =
      [("-- a" : Text), "/* é\n */", "--"] := by decide +kernel
  have hkept : (ts.flatMap fun t => t.lexeme.kept) = "é \r\n'--' $$/*$$".toList := by
    decide +kernel
  have h := commentRanges?_of_tiles tiles_locatedTokens? places_locatedTokens? hts
  rw [hcomments, hkept] at h
  exact ⟨tiles_locatedTokens?, places_locatedTokens?, hts, h⟩

end SchemaDiagram.Sql
