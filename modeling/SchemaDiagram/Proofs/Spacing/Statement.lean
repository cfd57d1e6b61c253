import Mathlib.Data.List.Forall2
import SchemaDiagram.Proofs.Characters
import SchemaDiagram.Proofs.Spacing.Header

set_option autoImplicit false

namespace SchemaDiagram.Sql
open Text Unicode

variable {s t : Text}

namespace Quoting

def Regular (q : Quoting) : Prop := ∀ c, q = .plain c → isQuote c = true

theorem Regular.step {q : Quoting} (hq : q.Regular) (c : Char) : (q.step c).Regular := by
  intro d hd
  cases q with
  | outside b =>
    simp only [Quoting.step] at hd
    split at hd
    · split at hd <;> cases hd
      rfl
    · split at hd <;> cases hd
      rfl
  | plain p =>
    simp only [Quoting.step] at hd
    split at hd
    · cases hd
    · exact hq d hd
  | escape =>
    simp only [Quoting.step] at hd
    split at hd
    · cases hd
    · split at hd <;> cases hd
  | escaped => cases hd

theorem regular_start : start.Regular := nofun

theorem regular_after {q : Quoting} (hq : q.Regular) (s : Text) : (q.after s).Regular := by
  induction s generalizing q with
  | nil => exact hq
  | cons c s ih => exact ih (hq.step c)

def settled : Quoting → Quoting
  | outside _ => outside .gap
  | plain q => plain q
  | escape => escape
  | escaped => escape

theorem isQuote_of_isBlank {b : Char} (hb : isBlank b = true) : isQuote b = false := by
  simp [isQuote, ne_of_isBlank (c := '\'') (by decide) hb, ne_of_isBlank (c := '"') (by decide) hb]

theorem step_blank {q : Quoting} (hq : q.Regular) {b : Char} (hb : isBlank b = true) :
    q.step b = q.settled := by
  have hquote := isQuote_of_isBlank hb
  have hne : b ≠ '\'' ∧ b ≠ '"' := by simpa [isQuote] using hquote
  cases q with
  | outside before =>
    have hword : isAlphanumeric b = false :=
      of_isBlank (P := fun c => isAlphanumeric c = false) (by decide +kernel) hb
    have hline : b ≠ '_' := ne_of_isBlank (by decide) hb
    simp [step, settled, Before.next, hne, hword, hline]
  | plain p =>
    have hp : b ≠ p := by
      rintro rfl
      rw [hq b rfl] at hquote
      cases hquote
    simp [step, settled, hp]
  | escape => simp [step, settled, hne, ne_of_isBlank (c := '\\') (by decide) hb]
  | escaped => rfl

theorem settled_settled (q : Quoting) : q.settled.settled = q.settled := by cases q <;> rfl

theorem Regular.settled {q : Quoting} (hq : q.Regular) : q.settled.Regular := by
  rw [← step_blank hq isBlank_space]
  exact hq.step ' '

end Quoting

namespace Nesting

def settled (n : Nesting) : Nesting := ⟨n.quoting.settled, n.depth⟩

theorem step_blank {n : Nesting} (hn : n.quoting.Regular) {b : Char} (hb : isBlank b = true) :
    n.step b = n.settled := by
  have hopen : b ≠ '(' := ne_of_isBlank (by decide) hb
  have hclose : b ≠ ')' := ne_of_isBlank (by decide) hb
  simp [step, settled, Quoting.step_blank hn hb, hopen, hclose]

theorem closes_blank (n : Nesting) {b : Char} (hb : isBlank b = true) : n.closes b = false := by
  simp [closes, ne_of_isBlank (c := ')') (by decide) hb]

end Nesting

theorem spanWith_blank (n : Nesting) (hs : ∀ c ∈ s, isBlank c = true) :
    spanWith Nesting.step Nesting.closes n s = (s, []) := by
  induction s generalizing n with
  | nil => rfl
  | cons b s ih =>
    obtain ⟨hb, hs⟩ := List.forall_mem_cons.1 hs
    simp [spanWith, n.closes_blank hb, ih (n.step b) hs]

theorem spanWith_gap {n : Nesting} (hn : n.quoting.Regular) {b : Char} (hb : isBlank b = true)
    (s : Text) :
    spanWith Nesting.step Nesting.closes n (b :: s) =
      (b :: (s.takeWhile isBlank ++
        (spanWith Nesting.step Nesting.closes n.settled (skipBlanks s)).1),
        (spanWith Nesting.step Nesting.closes n.settled (skipBlanks s)).2) := by
  induction s generalizing n b with
  | nil => simp [spanWith, n.closes_blank hb, skipBlanks]
  | cons c s ih =>
    rw [spanWith, n.closes_blank hb, Nesting.step_blank hn hb]
    by_cases hc : isBlank c = true
    · have hrest := ih (n := n.settled) hn.settled hc
      have hsettled : n.settled.settled = n.settled := by
        simp [Nesting.settled, Quoting.settled_settled]
      rw [hsettled] at hrest
      simp [hrest, hc, skipBlanks_blank hc]
    · have hc : isBlank c = false := by simpa using hc
      simp [hc, skipBlanks_solid hc]

def SamePieces (x y : Text × Text) : Prop :=
  Alike x.1 y.1 ∧ ((x.2 = [] ∧ y.2 = []) ∨ ∃ c u v, x.2 = c :: u ∧ y.2 = c :: v ∧ Alike u v)

theorem samePieces_spanWith (h : Alike s t) {n : Nesting} (hn : n.quoting.Regular) :
    SamePieces (spanWith Nesting.step Nesting.closes n s)
      (spanWith Nesting.step Nesting.closes n t) := by
  induction h generalizing n with
  | ends hs ht =>
    rw [spanWith_blank n hs, spanWith_blank n ht]
    exact ⟨.ends hs ht, Or.inl ⟨rfl, rfl⟩⟩
  | @solid c s t hc h ih =>
    simp only [spanWith]
    split
    · exact ⟨.ends (List.forall_mem_nil _) (List.forall_mem_nil _), Or.inr ⟨c, s, t, rfl, rfl, h⟩⟩
    · obtain ⟨hinside, hrest⟩ := ih (n := n.step c) (hn.step c)
      exact ⟨.solid hc hinside, hrest⟩
  | @gap b b' s t hb hb' h ih =>
    obtain ⟨hinside, hrest⟩ := ih (n := n.settled) hn.settled
    have hskip : ∀ u v : Text, skipBlanks (u.takeWhile isBlank ++ v) = skipBlanks v :=
      fun u v => List.dropWhile_append_of_pos fun c => List.mem_takeWhile_imp
    rw [spanWith_gap hn hb, spanWith_gap hn hb']
    refine ⟨.gap hb hb' ?_, hrest⟩
    rw [hskip, hskip]
    exact hinside.skipBlanks

theorem rel_group? (h : Alike s t) :
    Option.Rel (fun x y => Alike x.1 y.1 ∧ Alike x.2 y.2) (group? s) (group? t) := by
  have hpieces := samePieces_spanWith h (n := .opened) fun _ hq => nomatch hq
  unfold group?
  generalize spanWith Nesting.step Nesting.closes .opened s = x at hpieces
  generalize spanWith Nesting.step Nesting.closes .opened t = y at hpieces
  obtain ⟨inside, rest⟩ := x
  obtain ⟨inside', rest'⟩ := y
  obtain ⟨hinside, ⟨rfl, rfl⟩ | ⟨c, u, v, rfl, rfl, hrest⟩⟩ := hpieces
  · exact .none
  · exact .some ⟨hinside, hrest⟩

theorem group?_suffix {inside rest : Text} (h : group? s = some (inside, rest)) : rest <:+ s := by
  have happend := spanWith_append Nesting.step Nesting.closes .opened s
  unfold group? at h
  split at h
  · rename_i c r heq
    cases h
    rw [heq] at happend
    exact (List.suffix_cons _ _).trans ⟨_, happend⟩
  · cases h

theorem endsStatement_skipBlanks (s : Text) : endsStatement (skipBlanks s) = endsStatement s := by
  have hskip : trimStart (skipBlanks s) = trimStart s := skipBlanks_skipBlanks s
  rw [endsStatement, endsStatement, hskip]

theorem endsStatement_eq (h : Alike s t) : endsStatement s = endsStatement t := by
  induction h with
  | @ends s t hs ht =>
    rw [← endsStatement_skipBlanks s, ← endsStatement_skipBlanks t, skipBlanks_eq_nil hs,
      skipBlanks_eq_nil ht]
  | @solid c s t hc h =>
    have hfirst : ∀ s : Text, trimStart (c :: s) = c :: s := skipBlanks_solid hc
    rw [endsStatement, endsStatement, hfirst, hfirst]
  | @gap b b' s t hb hb' h ih =>
    rw [← endsStatement_skipBlanks (b :: s), skipBlanks_blank hb,
      ← endsStatement_skipBlanks (b' :: t), skipBlanks_blank hb', ih]

theorem tableHeader?_paren {n r : Text} (h : tableHeader? s = some (n, r)) : '(' :: r <:+ s := by
  simp only [tableHeader?, Option.bind_eq_bind, Option.bind_eq_some_iff, Option.pure_def,
    Option.some.injEq, Prod.mk.injEq] at h
  obtain ⟨s1, h1, s2, h2, ⟨q, s3⟩, h3, s4, h4, -, rfl⟩ := h
  have hopen : '(' :: s4 <:+ s2 := by
    rw [← eq_cons_of_mark? h4]
    exact (skipBlanks_suffix s3).trans ((qualifiedName?_suffix h3).trans
      ((shrinks_clause? _).optional s2))
  have hfirst : ∀ (ws : List Text) (s : Text),
      optional (firstOf (ws.map fun w => clause? [w])) s <:+ s := by
    intro ws s
    refine optional_suffix (firstOf_suffix fun read hread => ?_) s
    obtain ⟨w, -, rfl⟩ := List.mem_map.1 hread
    exact shrinks_clause? [w]
  exact hopen.trans ((clause?_suffix h2).trans ((hfirst ["TEMP", "TEMPORARY", "UNLOGGED"] _).trans
    ((hfirst ["GLOBAL", "LOCAL"] s1).trans (clause?_suffix h1))))

theorem usingMethod?_paren {r : Text} (h : usingMethod? s = some r) : '(' :: r <:+ s := by
  simp only [usingMethod?, Option.bind_eq_bind, Option.bind_eq_some_iff] at h
  obtain ⟨t, ht, h⟩ := h
  split at h
  · rw [← eq_cons_of_mark? h]
    exact (skipBlanks_suffix _).trans ((List.dropWhile_suffix _).trans (clause?_suffix ht))
  · cases h

theorem indexList?_paren {r : Text} (h : indexList? s = some r) : '(' :: r <:+ s := by
  simp only [indexList?, Option.orElse_eq_orElse, Option.orElse_eq_or, Option.or_eq_some_iff] at h
  rcases h with h | ⟨-, h⟩
  · exact (usingMethod?_paren h).trans (skipBlanks_suffix s)
  · rw [← eq_cons_of_mark? h]
    exact skipBlanks_suffix s

theorem fusedMethod?_paren {n before r : Text} (h : fusedMethod? n s = some (before, r)) :
    '(' :: r <:+ n ++ s := by
  induction n generalizing before with
  | nil => cases h
  | cons c n ih =>
    rw [fusedMethod?] at h
    split at h
    · rename_i hfused
      cases h
      exact (ih hfused).trans (List.suffix_cons c _)
    · obtain ⟨u, hu, heq⟩ := Option.map_eq_some_iff.1 h
      cases heq
      exact (usingMethod?_paren hu).trans (List.suffix_cons c _)

theorem indexTarget?_paren {n r : Text} (h : indexTarget? s = some (n, r)) : '(' :: r <:+ s := by
  simp only [indexTarget?, Option.bind_eq_bind, Option.bind_eq_some_iff] at h
  obtain ⟨⟨name, rest⟩, hname, h⟩ := h
  split at h
  · rename_i hlist
    cases h
    exact (indexList?_paren hlist).trans (qualifiedName?_suffix hname)
  · split at h
    · cases h
    · obtain ⟨⟨last, rest'⟩, hfused, heq⟩ := Option.bind_eq_some_iff.1 h
      cases heq
      have hlast : name.last ++ rest <:+ s := by
        rw [← qualifiedName?_append hname, QualifiedName.text, List.append_assoc]
        exact List.suffix_append _ _
      exact (fusedMethod?_paren hfused).trans hlast

theorem onTable?_paren {n r : Text} (h : onTable? s = some (n, r)) : '(' :: r <:+ s := by
  simp only [onTable?, Option.bind_eq_bind, Option.bind_eq_some_iff, Option.orElse_eq_orElse,
    Option.orElse_eq_or, Option.or_eq_some_iff] at h
  obtain ⟨t, ht, h⟩ := h
  rcases h with ⟨u, hu, h⟩ | ⟨-, h⟩
  · exact (indexTarget?_paren h).trans ((clause?_suffix hu).trans (clause?_suffix ht))
  · exact (indexTarget?_paren h).trans (clause?_suffix ht)

theorem indexHeader?_paren {n : IndexHeader} {r : Text} (h : indexHeader? s = some (n, r)) :
    '(' :: r <:+ s := by
  simp only [indexHeader?, Option.bind_eq_bind, Option.bind_eq_some_iff] at h
  obtain ⟨t, ht, h⟩ := h
  have hstart := ((shrinks_clause? ["IF", "NOT", "EXISTS"]).optional
    (optional (clause? ["CONCURRENTLY"]) t)).trans
      (((shrinks_clause? ["CONCURRENTLY"]).optional t).trans (clause?_suffix ht))
  simp only [Option.orElse_eq_orElse, Option.orElse_eq_or, Option.or_eq_some_iff,
    Option.bind_eq_some_iff, Option.map_eq_some_iff, Option.pure_def, Option.some.injEq,
    Prod.mk.injEq] at h
  rcases h with ⟨⟨name, u⟩, hu, v, hv, ⟨table, w⟩, hw, -, rfl⟩ | ⟨-, ⟨table, w⟩, hw, -, rfl⟩
  · exact (onTable?_paren hw).trans ((blanks?_suffix hv).trans ((name?_suffix hu).trans hstart))
  · exact (onTable?_paren hw).trans hstart

theorem collapse_take (h : Alike s t) {r r' : Text} (hr : Alike r r') (hs : '(' :: r <:+ s)
    (ht : '(' :: r' <:+ t) :
    collapse (s.take (s.length - r.length)) = collapse (t.take (t.length - r'.length)) := by
  have htake : ∀ u v : Text, (u ++ '(' :: v).take ((u ++ '(' :: v).length - v.length) = u ++ ['('] :=
    fun u v => take_of_eq_append (List.append_cons u '(' v)
  obtain ⟨u, rfl⟩ := hs
  obtain ⟨u', rfl⟩ := ht
  have hrest : collapse ('(' :: r) = collapse ('(' :: r') := (Alike.solid isBlank_paren hr).collapse_eq
  have hall := h.collapse_eq
  rw [collapse_append_cons isBlank_paren u r, collapse_append_cons isBlank_paren u' r', hrest] at hall
  rw [htake, htake]
  exact List.append_cancel_right hall

inductive SameOccurrence {α : Type} (R : α → α → Prop) : Occurrence α → Occurrence α → Prop where
  | complete {a b : α} (h : R a b) : SameOccurrence R (.complete a) (.complete b)
  | unterminated {u v : Text} (h : collapse u = collapse v) :
      SameOccurrence R (.unterminated u) (.unterminated v)

namespace StatementKind
variable {η α : Type} {kind : StatementKind η α}

theorem occurrencesAfter_cons (before : Option Char) (c : Char) (s : Text) :
    kind.occurrencesAfter before (c :: s) =
      match kind.headerAfter? before (c :: s) with
      | none => kind.occurrencesAfter (some c) s
      | some (header, afterOpen) =>
        match kind.list? afterOpen with
        | some (inside, rest) =>
          .complete (kind.content header inside) :: kind.occurrencesAfter (some ')') rest
        | none =>
          .unterminated ((c :: s).take ((c :: s).length - afterOpen.length)) ::
            kind.occurrencesAfter (some '(') afterOpen := by
  rw [occurrencesAfter]
  split
  · rename_i hnone
    rw [hnone]
  · rename_i header afterOpen hsome
    rw [hsome]
    simp only
    split
    · rename_i hlist
      rw [hlist]
    · rename_i hlist
      rw [hlist]

/-- What a kind of statement makes of alike texts; `H` compares headers, and `R` contents. -/
structure Respects (kind : StatementKind η α) (H : η → η → Prop) (R : α → α → Prop) : Prop where
  leads : Leads "CREATE" kind.header?
  paren : ∀ {s r : Text} {h : η}, kind.header? s = some (h, r) → '(' :: r <:+ s
  header : ∀ {s t : Text}, Ahead s t →
    Option.Rel (fun x y => H x.1 y.1 ∧ Alike x.2 y.2) (kind.header? s) (kind.header? t)
  ends : ∀ {s t : Text}, Alike s t → kind.ends s = kind.ends t
  content : ∀ {h h' : η} {i i' : Text}, H h h' → Alike i i' → R (kind.content h i) (kind.content h' i')

theorem headerAfter?_blank (hkind : Leads "CREATE" kind.header?) {b : Char} (hb : isBlank b = true)
    (before : Option Char) (s : Text) : kind.headerAfter? before (b :: s) = none := by
  unfold headerAfter?
  split
  · exact hkind.eq_none (wholePhrase?_of_gap (by decide) (isWordChar_of_isBlank hb) s)
  · rfl

theorem exists_occurrencesAfter_gap (hkind : Leads "CREATE" kind.header?) {b : Char}
    (hb : isBlank b = true) (before : Option Char) (s : Text) :
    ∃ b', isBlank b' = true ∧
      kind.occurrencesAfter before (b :: s) = kind.occurrencesAfter (some b') (skipBlanks s) := by
  induction s generalizing b before with
  | nil =>
    refine ⟨b, hb, ?_⟩
    rw [occurrencesAfter_cons, headerAfter?_blank hkind hb]
    rfl
  | cons c s ih =>
    rw [occurrencesAfter_cons, headerAfter?_blank hkind hb]
    by_cases hc : isBlank c = true
    · rw [skipBlanks_blank hc]
      exact ih hc (some b)
    · rw [skipBlanks_solid (by simpa using hc)]
      exact ⟨b, hb, rfl⟩

theorem occurrencesAfter_blank (hkind : Leads "CREATE" kind.header?)
    (hs : ∀ c ∈ s, isBlank c = true) (before : Option Char) : kind.occurrencesAfter before s = [] := by
  cases s with
  | nil => rw [occurrencesAfter]
  | cons b s =>
    obtain ⟨hb, hs⟩ := List.forall_mem_cons.1 hs
    obtain ⟨b', -, hgap⟩ := exists_occurrencesAfter_gap hkind hb before s
    rw [hgap, skipBlanks_eq_nil hs, occurrencesAfter]

variable {H : η → η → Prop} {R : α → α → Prop}

theorem Respects.rel_headerAfter? (hkind : kind.Respects H R) (h : Alike s t) (hquote : '"' ∉ s)
    {before before' : Option Char} (hb : beginsWord before = beginsWord before') :
    Option.Rel (fun x y => H x.1 y.1 ∧ Alike x.2 y.2) (kind.headerAfter? before s)
      (kind.headerAfter? before' t) := by
  have hnone : ∀ {s : Text}, '(' ∉ s → kind.header? s = none := by
    intro s hs
    by_contra hsome
    obtain ⟨x, hx⟩ := Option.ne_none_iff_exists'.1 hsome
    exact hs ((hkind.paren hx).subset List.mem_cons_self)
  unfold headerAfter?
  rw [hb]
  split
  · by_cases hparen : '(' ∈ s
    · exact hkind.header (ahead_of_alike h hparen hquote)
    · rw [hnone hparen, hnone fun ht => hparen ((h.mem_iff isBlank_paren).2 ht)]
      exact .none
  · exact .none

theorem Respects.paren_headerAfter? (hkind : kind.Respects H R) {before : Option Char} {h : η}
    {r : Text} (hs : kind.headerAfter? before s = some (h, r)) : '(' :: r <:+ s := by
  unfold headerAfter? at hs
  split at hs
  · exact hkind.paren hs
  · cases hs

theorem Respects.rel_list? (hkind : kind.Respects H R) (h : Alike s t) :
    Option.Rel (fun x y => Alike x.1 y.1 ∧ Alike x.2 y.2) (kind.list? s) (kind.list? t) := by
  have hgroup := rel_group? h
  unfold list?
  generalize group? s = x at hgroup
  generalize group? t = y at hgroup
  cases hgroup with
  | none => exact .none
  | some hxy =>
    simp only [Option.filter_some, hkind.ends hxy.2]
    split
    · exact .some hxy
    · exact .none

theorem Respects.forall₂_occurrencesAfter (hkind : kind.Respects H R) (h : Alike s t)
    (hquote : '"' ∉ s) {before before' : Option Char} (hb : beginsWord before = beginsWord before') :
    List.Forall₂ (SameOccurrence R) (kind.occurrencesAfter before s)
      (kind.occurrencesAfter before' t) := by
  induction hlength : s.length using Nat.strongRecOn generalizing s t before before' with
  | ind n ih =>
    subst hlength
    have hbegins : ∀ {b : Char}, isBlank b = true → beginsWord (some b) = true :=
      fun hb => by simp [beginsWord, isWordChar_of_isBlank hb]
    cases h with
    | ends hs ht =>
      rw [occurrencesAfter_blank hkind.leads hs, occurrencesAfter_blank hkind.leads ht]
      exact .nil
    | @gap b b' s t hb hb' h =>
      obtain ⟨d, hd, hs⟩ := exists_occurrencesAfter_gap hkind.leads hb before s
      obtain ⟨d', hd', ht⟩ := exists_occurrencesAfter_gap hkind.leads hb' before' t
      rw [hs, ht]
      have hsuffix := skipBlanks_suffix s
      refine ih _ (Nat.lt_succ_of_le hsuffix.length_le) h ?_ ((hbegins hd).trans (hbegins hd').symm) rfl
      exact fun hmem => hquote (List.mem_cons_of_mem b (hsuffix.subset hmem))
    | @solid c s t hc h =>
      have hall : Alike (c :: s) (c :: t) := .solid hc h
      have hheader := hkind.rel_headerAfter? hall hquote hb
      rw [occurrencesAfter_cons, occurrencesAfter_cons]
      generalize hs : kind.headerAfter? before (c :: s) = x at hheader
      generalize ht : kind.headerAfter? before' (c :: t) = y at hheader
      cases hheader with
      | none => exact ih _ (Nat.lt_succ_self _) h (fun hmem => hquote (List.mem_cons_of_mem c hmem)) rfl rfl
      | @some x y hxy =>
        obtain ⟨header, afterOpen⟩ := x
        obtain ⟨header', afterOpen'⟩ := y
        obtain ⟨hheaders, hopen⟩ := hxy
        have hparen := hkind.paren_headerAfter? hs
        -- Behind the header, and behind the list, the texts are alike again and shorter.
        have hnext : ∀ {r r' : Text}, r <:+ afterOpen → Alike r r' → ∀ d,
            List.Forall₂ (SameOccurrence R) (kind.occurrencesAfter (some d) r)
              (kind.occurrencesAfter (some d) r') := by
          intro r r' hr hrest d
          have hsuffix := (hr.trans (List.suffix_cons '(' afterOpen)).trans hparen
          have hlength := hparen.length_le
          rw [List.length_cons] at hlength
          refine ih _ (Nat.lt_of_le_of_lt hr.length_le hlength) hrest ?_ rfl rfl
          exact fun hmem => hquote (hsuffix.subset hmem)
        have hlist := hkind.rel_list? hopen
        simp only at hlist ⊢
        generalize hl : kind.list? afterOpen = l at hlist
        generalize kind.list? afterOpen' = l' at hlist
        cases hlist with
        | none =>
          have hparen' := hkind.paren_headerAfter? ht
          refine .cons (.unterminated ?_) (hnext (List.suffix_refl _) hopen '(')
          exact collapse_take hall hopen hparen hparen'
        | @some x y hxy =>
          obtain ⟨inside, rest⟩ := x
          obtain ⟨hinside, hrest⟩ := hxy
          have hsuffix := group?_suffix (Option.filter_eq_some_iff.1 hl).1
          exact .cons (.complete (hkind.content hheaders hinside)) (hnext hsuffix hrest ')')

theorem Respects.forall₂_occurrences (hkind : kind.Respects H R) (h : Alike (skipBlanks s) t)
    (hquote : '"' ∉ s) :
    List.Forall₂ (SameOccurrence R) (kind.occurrences s) (kind.occurrences t) := by
  have hquote : '"' ∉ skipBlanks s := fun hmem => hquote ((skipBlanks_suffix s).subset hmem)
  cases s with
  | nil => exact hkind.forall₂_occurrencesAfter h hquote rfl
  | cons c s =>
    by_cases hc : isBlank c = true
    · obtain ⟨b, hb, hgap⟩ := exists_occurrencesAfter_gap hkind.leads hc none s
      rw [skipBlanks_blank hc] at h hquote
      rw [occurrences, hgap]
      refine hkind.forall₂_occurrencesAfter h hquote ?_
      simp [beginsWord, isWordChar_of_isBlank hb]
    · rw [skipBlanks_solid (by simpa using hc)] at h hquote
      exact hkind.forall₂_occurrencesAfter h hquote rfl

end StatementKind

theorem respects_tableStatements :
    tableStatements.Respects (fun n n' => normalizeName n = normalizeName n')
      fun a b => a.name = b.name ∧ collapse a.body = collapse b.body where
  leads := leads_tableHeader?
  paren := tableHeader?_paren
  header := rel_tableHeader?
  ends := endsStatement_eq
  content hname hinside := by
    refine ⟨hname, ?_⟩
    simp only [tableStatements, collapse_trim]
    exact hinside.collapse_eq

theorem respects_indexStatements :
    indexStatements.Respects
      (fun h h' => h.name = h'.name ∧ normalizeName h.table = normalizeName h'.table) Eq where
  leads := leads_indexHeader?
  paren := indexHeader?_paren
  header := rel_indexHeader?
  ends _ := rfl
  content hheader hinside := by
    obtain ⟨hname, htable⟩ := hheader
    simp only [indexStatements, hname, htable, hinside.collapse_eq]

end SchemaDiagram.Sql
