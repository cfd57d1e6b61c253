import SchemaDiagram.Proofs.CommentRanges

/-!
How far a token is read. Words and numbers apart, every reader decides where its token ends by the
characters up to there and at most one behind them (`LooksAhead`), so the text from then on may be
any other.
-/

set_option autoImplicit false

namespace SchemaDiagram.Sql.Token
open Unicode Text

/-- An extent is settled by the characters that belong to it and `k` more behind them. -/
def LooksAhead (k : Nat) (read : Text → Option Nat) : Prop :=
  ∀ {s s' : Text} {n : Nat}, read s = some n → s.take (n + k) = s'.take (n + k) → read s' = some n

section
variable {c : Char} {s s' : Text} {n : Nat}

theorem exists_cons_of_take (h : (c :: s).take (n + 1) = s'.take (n + 1)) :
    ∃ r, s' = c :: r ∧ s.take n = r.take n := by
  cases s' with
  | nil => cases h
  | cons d r =>
    obtain ⟨rfl, hrest⟩ := List.cons.inj h
    exact ⟨r, rfl, hrest⟩

theorem exists_cons_cons_of_take {d : Char}
    (h : (c :: d :: s).take (n + 2) = s'.take (n + 2)) :
    ∃ r, s' = c :: d :: r ∧ s.take n = r.take n := by
  obtain ⟨t, rfl, hone⟩ := exists_cons_of_take h
  obtain ⟨r, rfl, htwo⟩ := exists_cons_of_take hone
  exact ⟨r, rfl, htwo⟩

theorem take_of_take {m : Nat} (h : s.take n = s'.take n) (hm : m ≤ n) : s.take m = s'.take m := by
  have htake := congrArg (List.take m) h
  rwa [List.take_take, List.take_take, Nat.min_eq_left hm] at htake

theorem take_drop_of_take {m : Nat} (h : s.take (m + n) = s'.take (m + n)) :
    (s.drop m).take n = (s'.drop m).take n := by
  rw [List.take_drop, List.take_drop, h]

theorem head?_of_take (h : s.take (n + 1) = s'.take (n + 1)) : s.head? = s'.head? := by
  have hone := take_of_take h (Nat.le_add_left 1 n)
  cases s <;> cases s' <;> simp_all

theorem takeWhile_of_take {p : Char → Bool}
    (h : s.take ((s.takeWhile p).length + 1) = s'.take ((s.takeWhile p).length + 1)) :
    s'.takeWhile p = s.takeWhile p := by
  induction s generalizing s' with
  | nil =>
    cases s' with
    | nil => rfl
    | cons d r => cases h
  | cons c s ih =>
    obtain ⟨r, rfl, hrest⟩ := exists_cons_of_take h
    by_cases hc : p c = true
    · rw [List.takeWhile_cons_of_pos hc] at hrest ⊢
      rw [List.takeWhile_cons_of_pos hc, ih hrest]
    · rw [List.takeWhile_cons_of_neg hc, List.takeWhile_cons_of_neg hc]

theorem takeWhile_take_of_take {p : Char → Bool} {k : Nat}
    (h : s.take (((s.take k).takeWhile p).length + 1) =
      s'.take (((s.take k).takeWhile p).length + 1)) :
    (s'.take k).takeWhile p = (s.take k).takeWhile p := by
  refine takeWhile_of_take ?_
  have htake := congrArg (List.take k) h
  rwa [List.take_take, List.take_take, Nat.min_comm, ← List.take_take, ← List.take_take] at htake

end

theorem looksAhead_quotedExtent? (escapes : Bool) (quote : Char) :
    LooksAhead 1 (quotedExtent? escapes quote) := by
  intro s s' n h htake
  fun_induction quotedExtent? escapes quote s generalizing s' n with
  | case1 => cases h
  | case2 =>
    cases h
    obtain ⟨r, rfl, hrest⟩ := exists_cons_of_take htake
    cases r with
    | nil => simp [quotedExtent?]
    | cons d r => cases hrest
  | case3 => cases h
  | case4 s ih =>
    obtain ⟨m, hm, rfl⟩ := Option.map_eq_some_iff.1 h
    obtain ⟨r, rfl, hrest⟩ := exists_cons_cons_of_take htake
    rw [quotedExtent?, if_pos rfl, if_pos rfl, ih hm hrest]
    rfl
  | case5 d s hd =>
    cases h
    obtain ⟨r, rfl, -⟩ := exists_cons_cons_of_take htake
    rw [quotedExtent?, if_pos rfl, if_neg hd]
  | case6 c d s hc hescape ih =>
    obtain ⟨m, hm, rfl⟩ := Option.map_eq_some_iff.1 h
    obtain ⟨r, rfl, hrest⟩ := exists_cons_cons_of_take htake
    rw [quotedExtent?, if_neg hc, if_pos hescape, ih hm hrest]
    rfl
  | case7 c d s hc hescape ih =>
    obtain ⟨m, hm, rfl⟩ := Option.map_eq_some_iff.1 h
    obtain ⟨r, rfl, hrest⟩ := exists_cons_of_take htake
    have hnext := ih hm hrest
    obtain ⟨r, rfl, -⟩ := exists_cons_of_take hrest
    rw [quotedExtent?, if_neg hc, if_neg hescape, hnext]
    rfl

theorem namesCharacter_of_take {size : Nat} {s s' : Text} (h : s.take size = s'.take size) :
    namesCharacter size s' = namesCharacter size s := by
  rw [namesCharacter, namesCharacter, h]

theorem looksAhead_escapeExtent? : LooksAhead 1 escapeExtent? := by
  intro s s' n h htake
  cases s with
  | nil => cases h
  | cons c s =>
    obtain ⟨r, rfl, hrest⟩ := exists_cons_of_take htake
    have hnames : ∀ {size : Nat}, size ≤ n → namesCharacter size r = namesCharacter size s :=
      fun hsize => namesCharacter_of_take (take_of_take hrest hsize)
    have hdigits : ∀ {p : Char → Bool}, ((s.take 2).takeWhile p).length + 1 ≤ n →
        (r.take 2).takeWhile p = (s.take 2).takeWhile p :=
      fun hlength => takeWhile_take_of_take (take_of_take hrest hlength)
    simp only [escapeExtent?] at h ⊢
    split at h
    · rename_i hc
      split at h
      · rename_i hn
        cases h
        rw [if_pos hc, hnames (by decide), if_pos hn]
      · cases h
    rename_i hu
    split at h
    · rename_i hc
      split at h
      · rename_i hn
        cases h
        rw [if_neg hu, if_pos hc, hnames (by decide), if_pos hn]
      · cases h
    rename_i hU
    split at h
    · rename_i hc
      rw [if_neg hu, if_neg hU, if_pos hc]
      split at h
      · rename_i hempty
        cases h
        rw [hdigits (by simp [List.isEmpty_iff.1 hempty]), if_pos hempty]
      · rename_i hempty
        split at h
        · rename_i hn
          cases h
          rw [hdigits (Nat.le_refl _), if_neg hempty, if_pos hn]
        · cases h
    rename_i hx
    rw [if_neg hu, if_neg hU, if_neg hx]
    split at h
    · rename_i hc
      split at h
      · rename_i hn
        cases h
        rw [if_pos hc, hdigits (Nat.le_refl _), if_pos hn]
      · cases h
    · rename_i hc
      rw [if_neg hc]
      exact h

theorem take_rest_of_take {m k : Nat} {s r : Text}
    (h : s.take (m + 1 + k) = r.take (m + 1 + k)) :
    s.take (m + 1) = r.take (m + 1) ∧ (s.drop m).take (k + 1) = (r.drop m).take (k + 1) := by
  refine ⟨take_of_take h (by omega), take_drop_of_take ?_⟩
  rwa [show m + (k + 1) = m + 1 + k by omega]

theorem looksAhead_unicodeEscapeExtent? : LooksAhead 1 unicodeEscapeExtent? := by
  intro s s' n h htake
  cases s with
  | nil => cases h
  | cons c s =>
    obtain ⟨r, rfl, hrest⟩ := exists_cons_of_take htake
    simp only [unicodeEscapeExtent?] at h ⊢
    split at h
    · rename_i hc
      rw [if_pos hc]
      exact h
    · rename_i hc
      rw [if_neg hc]
      by_cases hplus : c = '+'
      · simp only [if_pos hplus] at h ⊢
        split at h
        · rename_i hdigits
          cases h
          rw [← take_of_take hrest (by decide), if_pos hdigits]
        · cases h
      · simp only [if_neg hplus] at h ⊢
        split at h
        · rename_i hdigits
          cases h
          rw [← take_of_take htake (by decide), if_pos hdigits]
        · cases h

structure ReadsEscapes (escape read : Text → Option Nat) : Prop where
  nil : read [] = none
  doubled : ∀ s, read ('\'' :: '\'' :: s) = (read s).map (· + 2)
  closing : ∀ s, (∀ t, s ≠ '\'' :: t) → read ('\'' :: s) = some 1
  escaped : ∀ s, read ('\\' :: s) =
    (escape s).bind fun n => (read (s.drop n)).map fun rest => n + 1 + rest
  other : ∀ c s, c ≠ '\'' → c ≠ '\\' → read (c :: s) = (read s).map (· + 1)

theorem readsEscapes_escapeLiteralExtent? : ReadsEscapes escapeExtent? escapeLiteralExtent? where
  nil := by rw [escapeLiteralExtent?]
  doubled s := by rw [escapeLiteralExtent?]
  closing s hs := by
    rw [escapeLiteralExtent?]
    exact hs
  escaped s := by
    rw [escapeLiteralExtent?]
    simp only [Option.map_eq_bind, Function.comp_def]
    rfl
  other c s hquote hback := by
    rw [escapeLiteralExtent?]
    · exact fun _ hc => absurd hc hquote
    · exact hquote
    · exact hback

theorem readsEscapes_unicodeLiteralExtent? :
    ReadsEscapes unicodeEscapeExtent? unicodeLiteralExtent? where
  nil := by rw [unicodeLiteralExtent?]
  doubled s := by rw [unicodeLiteralExtent?]
  closing s hs := by
    rw [unicodeLiteralExtent?]
    exact hs
  escaped s := by
    rw [unicodeLiteralExtent?]
    simp only [Option.map_eq_bind, Function.comp_def]
    rfl
  other c s hquote hback := by
    rw [unicodeLiteralExtent?]
    · exact fun _ hc => absurd hc hquote
    · exact hquote
    · exact hback

theorem ReadsEscapes.looksAhead {escape read : Text → Option Nat}
    (hread : ReadsEscapes escape read) (hescape : LooksAhead 1 escape) : LooksAhead 1 read := by
  intro s s' n h htake
  induction hlength : s.length using Nat.strongRecOn generalizing s s' n with
  | ind k ih =>
    subst hlength
    cases s with
    | nil =>
      rw [hread.nil] at h
      cases h
    | cons c s =>
      obtain ⟨r, rfl, hrest⟩ := exists_cons_of_take htake
      by_cases hquote : c = '\''
      · subst hquote
        by_cases hs : ∃ t, s = '\'' :: t
        · obtain ⟨t, rfl⟩ := hs
          rw [hread.doubled] at h
          obtain ⟨m, hm, rfl⟩ := Option.map_eq_some_iff.1 h
          obtain ⟨r, rfl, hafter⟩ := exists_cons_of_take hrest
          rw [hread.doubled, ih t.length (by simp only [List.length_cons]; omega) hm hafter rfl]
          rfl
        · rw [hread.closing s fun t ht => hs ⟨t, ht⟩] at h
          cases h
          refine hread.closing r ?_
          rintro t rfl
          obtain ⟨t', ht, -⟩ := exists_cons_of_take hrest.symm
          exact hs ⟨t', ht⟩
      by_cases hback : c = '\\'
      · subst hback
        rw [hread.escaped] at h
        obtain ⟨m, hm, h⟩ := Option.bind_eq_some_iff.1 h
        obtain ⟨k, hk, rfl⟩ := Option.map_eq_some_iff.1 h
        obtain ⟨hnear, hafter⟩ := take_rest_of_take hrest
        have hlt : (s.drop m).length < ('\\' :: s).length := by
          rw [List.length_drop, List.length_cons]
          omega
        rw [hread.escaped, hescape hm hnear, Option.bind_some, ih _ hlt hk hafter rfl]
        rfl
      · rw [hread.other c s hquote hback] at h
        obtain ⟨m, hm, rfl⟩ := Option.map_eq_some_iff.1 h
        rw [hread.other c r hquote hback, ih s.length (Nat.lt_succ_self _) hm hrest rfl]
        rfl

theorem two_le_of_blockExtent? {depth : Nat} {s : Text} {n : Nat}
    (h : blockExtent? depth s = some n) : 2 ≤ n := by
  fun_induction blockExtent? depth s generalizing n with
  | case1 => cases h
  | case3 =>
    cases h
    exact Nat.le_refl 2
  | case2 depth s ih =>
    obtain ⟨m, -, rfl⟩ := Option.map_eq_some_iff.1 h
    exact Nat.le_add_left 2 m
  | case4 s depth ih =>
    obtain ⟨m, -, rfl⟩ := Option.map_eq_some_iff.1 h
    exact Nat.le_add_left 2 m
  | case5 depth c s _ _ _ ih =>
    obtain ⟨m, hm, rfl⟩ := Option.map_eq_some_iff.1 h
    exact Nat.le_succ_of_le (ih hm)

theorem looksAhead_blockExtent? (depth : Nat) : LooksAhead 0 (blockExtent? depth) := by
  intro s s' n h htake
  fun_induction blockExtent? depth s generalizing s' n with
  | case1 => cases h
  | case2 depth s ih =>
    obtain ⟨m, hm, rfl⟩ := Option.map_eq_some_iff.1 h
    obtain ⟨r, rfl, hrest⟩ := exists_cons_cons_of_take htake
    rw [blockExtent?, ih hm hrest]
    rfl
  | case3 =>
    cases h
    obtain ⟨r, rfl, -⟩ := exists_cons_cons_of_take (n := 0) htake
    rw [blockExtent?]
  | case4 s depth ih =>
    obtain ⟨m, hm, rfl⟩ := Option.map_eq_some_iff.1 h
    obtain ⟨r, rfl, hrest⟩ := exists_cons_cons_of_take htake
    rw [blockExtent?, ih hm hrest]
    rfl
  | case5 depth c s hopen hclose hlater ih =>
    obtain ⟨m, hm, rfl⟩ := Option.map_eq_some_iff.1 h
    obtain ⟨r, rfl, hrest⟩ := exists_cons_of_take htake
    have hbehind : ∀ {d t}, r = d :: t → ∃ t', s = d :: t' := by
      rintro d t rfl
      have hone : m = m - 1 + 1 := by
        have htwo := two_le_of_blockExtent? hm
        omega
      rw [hone] at hrest
      obtain ⟨t', hs, -⟩ := exists_cons_of_take hrest.symm
      exact ⟨t', hs⟩
    rw [blockExtent?, ih hm hrest]
    · rfl
    · intro t hc hr
      obtain ⟨t', hs⟩ := hbehind hr
      exact hopen t' hc hs
    · intro t hdepth hc hr
      obtain ⟨t', hs⟩ := hbehind hr
      exact hclose t' hdepth hc hs
    · intro d t hdepth hc hr
      obtain ⟨t', hs⟩ := hbehind hr
      exact hlater d t' hdepth hc hs

theorem length_le_of_extentThrough? {mark s : Text} {n : Nat} (h : extentThrough? mark s = some n) :
    mark.length ≤ n := by
  induction s generalizing n with
  | nil =>
    simp only [extentThrough?] at h
    split at h
    · rename_i hempty
      simp [List.isEmpty_iff.1 hempty]
    · cases h
  | cons c s ih =>
    simp only [extentThrough?] at h
    split at h
    · cases h
      exact Nat.le_refl _
    · obtain ⟨m, hm, rfl⟩ := Option.map_eq_some_iff.1 h
      exact Nat.le_succ_of_le (ih hm)

theorem isPrefixOf_of_take {mark s s' : Text} {n : Nat} (h : s.take n = s'.take n)
    (hmark : mark.length ≤ n) : mark.isPrefixOf s = mark.isPrefixOf s' := by
  have htake := take_of_take h hmark
  rw [Bool.eq_iff_iff, List.isPrefixOf_iff_prefix, List.isPrefixOf_iff_prefix,
    List.prefix_iff_eq_take, List.prefix_iff_eq_take, htake]

theorem looksAhead_extentThrough? {mark : Text} (hmark : mark ≠ []) :
    LooksAhead 1 (extentThrough? mark) := by
  intro s s' n h htake
  induction s generalizing s' n with
  | nil => simp [extentThrough?, hmark] at h
  | cons c s ih =>
    obtain ⟨r, rfl, hrest⟩ := exists_cons_of_take htake
    have hbegins := isPrefixOf_of_take htake (Nat.le_succ_of_le (length_le_of_extentThrough? h))
    simp only [extentThrough?] at h ⊢
    rw [← hbegins]
    split at h
    · rename_i hfound
      rw [if_pos hfound]
      exact h
    · rename_i hfound
      obtain ⟨m, hm, rfl⟩ := Option.map_eq_some_iff.1 h
      rw [if_neg hfound, ih hm hrest]
      rfl

theorem dollarExtent?_of_take {s s' : Text} {kind : TokenKind} {n : Nat}
    (h : dollarExtent? s = some (kind, n)) (htake : s.take (n + 1) = s'.take (n + 1)) :
    dollarExtent? s' = some (kind, n) := by
  have hlength : (s.takeWhile isTagChar).length ≤ n := by
    simp only [dollarExtent?] at h
    split at h
    · simp only [Option.bind_eq_bind, Option.bind_eq_some_iff, Option.pure_def, Option.some.injEq,
        Prod.mk.injEq] at h
      obtain ⟨m, -, -, rfl⟩ := h
      omega
    · cases h
      exact Nat.le_refl _
  have htag := takeWhile_of_take (take_of_take htake (Nat.succ_le_succ hlength))
  have hhead : (s'.drop (s.takeWhile isTagChar).length).head? =
      (s.drop (s.takeWhile isTagChar).length).head? :=
    (head?_of_take (n := 0) (take_drop_of_take (take_of_take htake (by omega)))).symm
  simp only [dollarExtent?, htag, hhead] at h ⊢
  split at h
  · rename_i hdollar
    simp only [Option.bind_eq_bind, Option.bind_eq_some_iff, Option.pure_def, Option.some.injEq,
      Prod.mk.injEq] at h
    obtain ⟨m, hm, rfl, rfl⟩ := h
    have hclose := looksAhead_extentThrough? (List.cons_ne_nil _ _) hm (take_drop_of_take htake)
    rw [if_pos hdollar, hclose]
    rfl
  · rename_i hdollar
    rw [if_neg hdollar]
    exact h

theorem oneOf_of_head? {allowed s s' : Text} (h : s.head? = s'.head?) :
    oneOf allowed s' = oneOf allowed s := by
  cases s <;> cases s' <;> simp_all [oneOf]

theorem negationExtent_of_take {s s' : Text}
    (h : s.take (negationExtent s + 1) = s'.take (negationExtent s + 1)) :
    negationExtent s' = negationExtent s := by
  fun_cases negationExtent s with
  | case1 s =>
    obtain ⟨r, rfl, hrest⟩ := exists_cons_cons_of_take h
    obtain ⟨r, rfl, -⟩ := exists_cons_of_take hrest
    rfl
  | case2 s hs =>
    have hvalue : negationExtent ('~' :: '~' :: s) = 2 := by
      rw [negationExtent]
      exact hs
    rw [hvalue] at h
    obtain ⟨r, rfl, hrest⟩ := exists_cons_cons_of_take h
    have hr : ∀ t, r ≠ '*' :: t := by
      rintro t rfl
      obtain ⟨t', rfl, -⟩ := exists_cons_of_take hrest.symm
      exact hs t' rfl
    rw [negationExtent]
    exact hr
  | case3 s =>
    obtain ⟨r, rfl, -⟩ := exists_cons_cons_of_take h
    rfl
  | case4 s hlong htwo hone =>
    have hvalue : negationExtent s = oneOf ['=', '!', '~'] s := by
      rw [negationExtent]
      all_goals assumption
    rw [hvalue] at h
    have hmark : ∀ d t, s' = '~' :: d :: t → ∃ t', s = '~' :: d :: t' := by
      rintro d t rfl
      cases s with
      | nil => cases h
      | cons e s =>
        obtain ⟨t', ht', hrest⟩ := exists_cons_of_take h
        cases ht'
        obtain ⟨t', rfl, -⟩ := exists_cons_of_take hrest.symm
        exact ⟨t', rfl⟩
    rw [negationExtent, oneOf_of_head? (head?_of_take h)]
    · rintro t rfl
      obtain ⟨t', rfl⟩ := hmark _ _ rfl
      exact htwo t' rfl
    · rintro t rfl
      obtain ⟨t', rfl⟩ := hmark _ _ rfl
      exact htwo t' rfl
    · rintro t rfl
      obtain ⟨t', rfl⟩ := hmark _ _ rfl
      exact hone t' rfl

theorem operatorRun_of_take {s s' : Text}
    (h : s.take (operatorRun s + 1) = s'.take (operatorRun s + 1)) :
    operatorRun s' = operatorRun s :=
  congrArg List.length (takeWhile_of_take h)

theorem symbolExtent_of_take {c : Char} {s s' : Text}
    (h : s.take (symbolExtent c s + 1) = s'.take (symbolExtent c s + 1)) :
    symbolExtent c s' = symbolExtent c s := by
  have hhead := head?_of_take h
  have hany : min 1 s'.length = min 1 s.length := by
    cases s <;> cases s' <;> simp_all
  unfold symbolExtent at h ⊢
  simp only [oneOf_of_head? hhead, hany]
  split
  · rfl
  rename_i hcaret
  split
  · rename_i hoperator
    rw [if_neg hcaret, if_pos hoperator] at h
    exact operatorRun_of_take h
  rename_i hoperator
  split
  · rfl
  rename_i hequal
  split
  · rename_i hnegation
    rw [if_neg hcaret, if_neg hoperator, if_neg hequal, if_pos hnegation] at h
    exact negationExtent_of_take h
  · rfl

theorem lineCommentExtent_of_take {s s' : Text}
    (h : s.take (lineCommentExtent s + 1) = s'.take (lineCommentExtent s + 1)) :
    lineCommentExtent s' = lineCommentExtent s := by
  have hle : (s.takeWhile fun c => !isLineBreak c).length ≤ s.length := (List.takeWhile_prefix _).length_le
  simp only [lineCommentExtent] at h ⊢
  have hrun := takeWhile_of_take (p := fun c => !isLineBreak c) (take_of_take h (by omega))
  have hlength := congrArg List.length h
  rw [hrun]
  simp only [List.length_take] at hlength
  omega

/-- Words and numbers apart, every token is settled by the character behind it. -/
theorem extent?_of_take {c : Char} {s s' : Text} {kind : TokenKind} {n : Nat}
    (hnumber : (c.isDigit || c = '.') = false) (hword : isWordStart c = false)
    (h : extent? c s = some (kind, n)) (htake : s.take (n + 1) = s'.take (n + 1)) :
    extent? c s' = some (kind, n) := by
  have hhead := head?_of_take htake
  have hliteral : ∀ {read : Text → Option Nat}, LooksAhead 1 read →
      literal? 0 (read s) = some (kind, n) → literal? 0 (read s') = some (kind, n) := by
    intro read hread hs
    simp only [literal?, Option.map_eq_some_iff, Prod.mk.injEq, Nat.zero_add] at hs
    obtain ⟨m, hm, rfl, rfl⟩ := hs
    rw [literal?, hread hm htake, Option.map_some, Nat.zero_add]
  -- The readers in the order in which they are tried, each with what it sees behind its token.
  unfold extent? at h ⊢
  simp only [← hhead, hnumber, hword, Bool.false_eq_true, if_false] at h ⊢
  split at h
  · rename_i hc
    rw [if_pos hc]
    exact hliteral (looksAhead_quotedExtent? _ _) h
  rename_i hsingle
  rw [if_neg hsingle]
  split at h
  · rename_i hc
    rw [if_pos hc]
    exact hliteral (looksAhead_quotedExtent? _ _) h
  rename_i hdouble
  rw [if_neg hdouble]
  split at h
  · rename_i hc
    rw [if_pos hc]
    exact dollarExtent?_of_take h htake
  rename_i hdollar
  rw [if_neg hdollar]
  split at h
  · rename_i hc
    cases h
    have hbehind : (s.drop 1).take (lineCommentExtent (s.drop 1) + 1) =
        (s'.drop 1).take (lineCommentExtent (s.drop 1) + 1) :=
      take_drop_of_take (by rwa [Nat.add_comm 1])
    rw [if_pos hc, lineCommentExtent_of_take hbehind]
  rename_i hline
  rw [if_neg hline]
  split at h
  · rename_i hc
    obtain ⟨m, hm, hn⟩ := Option.map_eq_some_iff.1 h
    cases hn
    have hbehind : (s.drop 1).take m = (s'.drop 1).take m :=
      take_drop_of_take (take_of_take htake (by omega))
    rw [if_pos hc, looksAhead_blockExtent? 0 hm hbehind]
    rfl
  rename_i hblock
  rw [if_neg hblock]
  split at h
  · rename_i hc
    rw [if_pos hc, oneOf_of_head? hhead]
    exact h
  rename_i hreturn
  rw [if_neg hreturn]
  split at h
  · rename_i hc
    rw [if_pos hc]
    exact h
  · rename_i hc
    cases h
    rw [if_neg hc, symbolExtent_of_take htake]

end SchemaDiagram.Sql.Token
