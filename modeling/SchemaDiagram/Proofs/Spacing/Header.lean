import SchemaDiagram.Proofs.Boundary
import SchemaDiagram.Proofs.Spacing.Alike

/-!
Headers of alike texts. As long as the parenthesis that ends a header is still to come and no
quoted name stands before it, readers take the same words and names from two texts, and what they
leave is alike again (`Respects`).
-/

set_option autoImplicit false

namespace SchemaDiagram.Sql
open Text Unicode

/-- Alike texts that hold a parenthesis and no double quote before it. -/
inductive Ahead : Text → Text → Prop where
  | paren {s t : Text} (h : Alike s t) : Ahead ('(' :: s) ('(' :: t)
  | solid {c : Char} {s t : Text} (hc : isBlank c = false) (hquote : c ≠ '"') (hparen : c ≠ '(')
      (h : Ahead s t) : Ahead (c :: s) (c :: t)
  | gap {b b' : Char} {s t : Text} (hb : isBlank b = true) (hb' : isBlank b' = true)
      (h : Ahead (skipBlanks s) (skipBlanks t)) : Ahead (b :: s) (b' :: t)

theorem isBlank_paren : isBlank '(' = false := by decide

theorem ahead_of_alike {s t : Text} (h : Alike s t) (hparen : '(' ∈ s) (hquote : '"' ∉ s) :
    Ahead s t := by
  induction h with
  | ends hs ht =>
    have hblank := hs '(' hparen
    rw [isBlank_paren] at hblank
    cases hblank
  | @solid c s t hc h ih =>
    obtain ⟨hc', hs⟩ := not_or.1 (mt List.mem_cons.2 hquote)
    by_cases hopen : c = '('
    · subst hopen
      exact .paren h
    · refine .solid hc (Ne.symm hc') hopen (ih ?_ hs)
      exact (List.mem_cons.1 hparen).resolve_left (Ne.symm hopen)
  | @gap b b' s t hb hb' h ih =>
    refine .gap hb hb' (ih ?_ ?_)
    · rw [← mem_skipBlanks_iff isBlank_paren, skipBlanks_blank hb] at hparen
      exact hparen
    · exact fun hmem => hquote (List.mem_cons_of_mem b (List.dropWhile_subset _ hmem))

section
variable {α β : Type} {R : α → α → Prop} {S : β → β → Prop}

theorem rel_bind {x y : Option α} (h : Option.Rel R x y) {f g : α → Option β}
    (hfg : ∀ a b, R a b → Option.Rel S (f a) (g b)) : Option.Rel S (x.bind f) (y.bind g) := by
  cases h with
  | none => exact .none
  | some h => exact hfg _ _ h

theorem rel_map {x y : Option α} (h : Option.Rel R x y) {f g : α → β}
    (hfg : ∀ a b, R a b → S (f a) (g b)) : Option.Rel S (x.map f) (y.map g) := by
  cases h with
  | none => exact .none
  | some h => exact .some (hfg _ _ h)

theorem rel_orElse {x y x' y' : Option α} (h : Option.Rel R x y) (h' : Option.Rel R x' y') :
    Option.Rel R (x <|> x') (y <|> y') := by
  cases h with
  | none => exact h'
  | some h => exact .some h

end

def Respects (read : Text → Option Text) : Prop :=
  ∀ {s t : Text}, Ahead s t → Option.Rel Ahead (read s) (read t)

theorem respects_keyword? {w : Text} (hw : ∀ k ∈ w, k.isUpper = true) : Respects (keyword? w) := by
  intro s t h
  induction w generalizing s t with
  | nil => exact .some h
  | cons k w ih =>
    obtain ⟨hk, hw⟩ := List.forall_mem_cons.1 hw
    cases h with
    | paren h =>
      have hparen := spells_of_not_isWordChar hk (c := '(') (by decide +kernel)
      rw [keyword?, keyword?, hparen]
      exact .none
    | @solid c s t hc hquote hparen h =>
      rw [keyword?, keyword?]
      split
      · exact ih hw h
      · exact .none
    | gap hb hb' h =>
      rw [keyword?, keyword?, spells_of_not_isWordChar hk (isWordChar_of_isBlank hb),
        spells_of_not_isWordChar hk (isWordChar_of_isBlank hb')]
      exact .none

theorem Ahead.skipBlanks {s t : Text} (h : Ahead s t) : Ahead (skipBlanks s) (skipBlanks t) := by
  cases h with
  | paren h =>
    rw [skipBlanks_solid isBlank_paren, skipBlanks_solid isBlank_paren]
    exact .paren h
  | solid hc hquote hparen h =>
    rw [skipBlanks_solid hc, skipBlanks_solid hc]
    exact .solid hc hquote hparen h
  | gap hb hb' h => rwa [skipBlanks_blank hb, skipBlanks_blank hb']

theorem respects_blanks? : Respects blanks? := by
  intro s t h
  cases h with
  | paren h => exact .none
  | solid hc hquote hparen h =>
    rw [blanks?, blanks?, hc]
    exact .none
  | gap hb hb' h =>
    rw [blanks?, blanks?, if_pos hb, if_pos hb']
    exact .some h

theorem respects_clause? {ws : List Text} (hws : ∀ w ∈ ws, ∀ k ∈ w, k.isUpper = true) :
    Respects (clause? ws) := by
  intro s t h
  induction ws generalizing s t with
  | nil => exact .some h
  | cons w ws ih =>
    obtain ⟨hw, hws⟩ := List.forall_mem_cons.1 hws
    refine rel_bind (respects_keyword? hw h) fun s t h => ?_
    exact rel_bind (respects_blanks? h) fun s t h => ih hws h

theorem respects_firstOf {reads : List (Text → Option Text)}
    (h : ∀ read ∈ reads, Respects read) : Respects (firstOf reads) := by
  intro s t hst
  induction reads with
  | nil => exact .none
  | cons read reads ih =>
    obtain ⟨hread, hreads⟩ := List.forall_mem_cons.1 h
    exact rel_orElse (hread hst) (ih hreads)

theorem Ahead.optional {s t : Text} (h : Ahead s t) {read : Text → Option Text}
    (hread : Respects read) : Ahead (optional read s) (optional read t) := by
  have hrel := hread h
  unfold Sql.optional
  cases hs : read s <;> cases ht : read t <;> rw [hs, ht] at hrel <;> cases hrel
  · exact h
  · assumption

theorem rel_mark?_paren {s t : Text} (h : Ahead s t) :
    Option.Rel Alike (mark? '(' s) (mark? '(' t) := by
  cases h with
  | paren h => exact .some h
  | solid hc hquote hparen h =>
    simp only [mark?, if_neg hparen]
    exact .none
  | gap hb hb' h =>
    simp only [mark?, if_neg (ne_of_isBlank isBlank_paren hb),
      if_neg (ne_of_isBlank isBlank_paren hb')]
    exact .none

theorem respects_mark? {m : Char} (hm : isBlank m = false) (hparen : m ≠ '(') :
    Respects (mark? m) := by
  intro s t h
  cases h with
  | paren h =>
    simp only [mark?, if_neg (Ne.symm hparen)]
    exact .none
  | solid hc hquote hparen h =>
    simp only [mark?]
    split
    · exact .some h
    · exact .none
  | gap hb hb' h =>
    simp only [mark?, if_neg (ne_of_isBlank hm hb), if_neg (ne_of_isBlank hm hb')]
    exact .none

theorem Ahead.span {p : Char → Bool} (hparen : p '(' = false)
    (hblank : ∀ c, isBlank c = true → p c = false) {s t : Text} (h : Ahead s t) :
    s.takeWhile p = t.takeWhile p ∧ Ahead (s.dropWhile p) (t.dropWhile p) := by
  induction h with
  | paren h => simpa [hparen] using Ahead.paren h
  | @solid c s t hc hquote hopen h ih =>
    by_cases hp : p c = true
    · rw [List.takeWhile_cons_of_pos hp, List.takeWhile_cons_of_pos hp,
        List.dropWhile_cons_of_pos hp, List.dropWhile_cons_of_pos hp, ih.1]
      exact ⟨rfl, ih.2⟩
    · rw [List.takeWhile_cons_of_neg hp, List.takeWhile_cons_of_neg hp,
        List.dropWhile_cons_of_neg hp, List.dropWhile_cons_of_neg hp]
      exact ⟨rfl, .solid hc hquote hopen h⟩
  | gap hb hb' h _ => simpa [hblank _ hb, hblank _ hb'] using Ahead.gap hb hb' h

def IsBare (n : Text) : Prop := ∀ c ∈ n, isNamePart c = true

theorem isNamePart_of_isBlank {c : Char} (h : isBlank c = true) : isNamePart c = false :=
  of_isBlank (P := fun c => isNamePart c = false) (by decide +kernel) h

theorem IsBare.ne {n : Text} (hn : IsBare n) {c : Char} (hc : isNamePart c = false) :
    ∀ d ∈ n, d ≠ c := by
  rintro d hd rfl
  have hd := hn d hd
  rw [hc] at hd
  cases hd

theorem IsBare.solid {n : Text} (hn : IsBare n) : ∀ c ∈ n, isBlank c = false := by
  intro c hc
  by_contra hblank
  have hpart := isNamePart_of_isBlank (by simpa using hblank)
  rw [hn c hc] at hpart
  cases hpart

theorem Ahead.append {n s t : Text} (hn : IsBare n) (h : Ahead s t) : Ahead (n ++ s) (n ++ t) := by
  induction n with
  | nil => exact h
  | cons c n ih =>
    obtain ⟨-, hrest⟩ := List.forall_mem_cons.1 hn
    refine .solid (hn.solid c List.mem_cons_self) ?_ ?_ (ih hrest)
    · exact hn.ne (by decide +kernel) c List.mem_cons_self
    · exact hn.ne (by decide +kernel) c List.mem_cons_self

theorem rel_bareName? {s t : Text} (h : Ahead s t) :
    Option.Rel (fun x y => x.1 = y.1 ∧ IsBare x.1 ∧ Ahead x.2 y.2) (bareName? s) (bareName? t) := by
  have hpart : ∀ c, isNameStart c = true → isNamePart c = true := by
    intro c hc
    simp [isNamePart, hc]
  have hstart : ∀ c, isBlank c = true → isNameStart c = false := by
    intro c hc
    by_contra hstart
    have hname := hpart c (by simpa using hstart)
    rw [isNamePart_of_isBlank hc] at hname
    cases hname
  cases h with
  | paren h =>
    simp only [bareName?, show isNameStart '(' = false by decide +kernel]
    exact .none
  | @solid c s t hc hquote hparen h =>
    obtain ⟨htake, hdrop⟩ := h.span (p := isNamePart) (by decide +kernel)
      fun c => isNamePart_of_isBlank
    simp only [bareName?]
    split
    · rename_i hc
      refine .some ⟨congrArg (c :: ·) htake, ?_, hdrop⟩
      exact List.forall_mem_cons.2 ⟨hpart c hc, fun d hd => List.mem_takeWhile_imp hd⟩
    · exact .none
  | gap hb hb' h =>
    simp only [bareName?, hstart _ hb, hstart _ hb']
    exact .none

theorem quotedName?_eq_none {c : Char} (hc : c ≠ '"') (r : Text) : quotedName? (c :: r) = none := by
  unfold quotedName?
  split
  · rename_i heq
    exact absurd (List.cons.inj heq).1 hc
  · rfl

theorem Ahead.quotedName? {s t : Text} (h : Ahead s t) : quotedName? s = none ∧ quotedName? t = none := by
  have hblank : isBlank '"' = false := by decide
  cases h with
  | paren h => exact ⟨quotedName?_eq_none (by decide) _, quotedName?_eq_none (by decide) _⟩
  | solid hc hquote hparen h => exact ⟨quotedName?_eq_none hquote _, quotedName?_eq_none hquote _⟩
  | gap hb hb' h =>
    exact ⟨quotedName?_eq_none (ne_of_isBlank hblank hb) _,
      quotedName?_eq_none (ne_of_isBlank hblank hb') _⟩

theorem rel_name? {s t : Text} (h : Ahead s t) :
    Option.Rel (fun x y => x.1 = y.1 ∧ IsBare x.1 ∧ Ahead x.2 y.2) (name? s) (name? t) := by
  obtain ⟨hs, ht⟩ := h.quotedName?
  rw [name?, name?, hs, ht]
  exact rel_bareName? h

def IsPoint (p : Text) : Prop :=
  ∃ u v, (∀ c ∈ u, isBlank c = true) ∧ (∀ c ∈ v, isBlank c = true) ∧ p = u ++ '.' :: v

theorem eq_cons_of_mark? {m : Char} {s r : Text} (h : mark? m s = some r) : s = m :: r := by
  cases s with
  | nil => cases h
  | cons c s =>
    simp only [mark?] at h
    split at h
    · rename_i hc
      cases h
      rw [hc]
    · cases h

theorem isPoint_of_secondPart? {s p n r : Text} (h : secondPart? s = some (p, n, r)) : IsPoint p := by
  simp only [secondPart?, Option.bind_eq_bind, Option.bind_eq_some_iff, Option.pure_def,
    Option.some.injEq, Prod.mk.injEq] at h
  obtain ⟨t, ht, -, -, rfl, -⟩ := h
  have hpoint : skipBlanks s = '.' :: t := eq_cons_of_mark? ht
  refine ⟨s.takeWhile isBlank, t.takeWhile isBlank, fun c => List.mem_takeWhile_imp,
    fun c => List.mem_takeWhile_imp, ?_⟩
  have hs : s = (s.takeWhile isBlank ++ '.' :: t.takeWhile isBlank) ++ skipBlanks t := by
    have hrest := List.takeWhile_append_dropWhile (p := isBlank) (l := t)
    have hall := List.takeWhile_append_dropWhile (p := isBlank) (l := s)
    rw [← skipBlanks, hpoint, ← hrest] at hall
    rw [List.append_assoc, List.cons_append]
    exact hall.symm
  exact take_of_eq_append hs

theorem rel_secondPart? {s t : Text} (h : Ahead s t) :
    Option.Rel (fun x y => x.2.1 = y.2.1 ∧ IsBare x.2.1 ∧ Ahead x.2.2 y.2.2)
      (secondPart? s) (secondPart? t) := by
  refine rel_bind (respects_mark? (by decide) (by decide) h.skipBlanks) fun u v h => ?_
  exact rel_bind (rel_name? h.skipBlanks) fun x y hxy => .some hxy

/-- Beginnings of names that differ at most in the blanks around a point. -/
def SameLead (lead lead' : Text) : Prop :=
  ∀ part, IsBare part → normalizeName (lead ++ part) = normalizeName (lead' ++ part)

theorem normalizeName_point {first point part : Text} (hfirst : IsBare first) (hpoint : IsPoint point)
    (hpart : IsBare part) :
    normalizeName (first ++ point ++ part) =
      join ['.'] [stripQuotes (trim first), stripQuotes (trim part)] := by
  obtain ⟨u, v, hu, hv, rfl⟩ := hpoint
  have hblank : ∀ {w : Text}, (∀ c ∈ w, isBlank c = true) → ∀ c ∈ w, decide (c = '.') = false :=
    fun hw c hc => decide_eq_false (ne_of_isBlank (by decide) (hw c hc))
  have hbare : ∀ {n : Text}, IsBare n → ∀ c ∈ n, decide (c = '.') = false :=
    fun hn c hc => decide_eq_false (hn.ne (by decide +kernel) c hc)
  have hleft : splitAt (· = '.') (first ++ u) = [first ++ u] :=
    splitAt_of_none (List.forall_mem_append.2 ⟨hbare hfirst, hblank hu⟩)
  have hright : splitAt (· = '.') (v ++ part) = [v ++ part] :=
    splitAt_of_none (List.forall_mem_append.2 ⟨hblank hv, hbare hpart⟩)
  rw [show first ++ (u ++ '.' :: v) ++ part = (first ++ u) ++ '.' :: (v ++ part) by simp,
    normalizeName, splitAt_append_cons (by decide), hleft, hright]
  simp only [List.singleton_append, List.map_cons, List.map_nil, trim_append_blank hu,
    trim_blank_append hv]

theorem rel_qualifiedName? {s t : Text} (h : Ahead s t) :
    Option.Rel (fun x y => SameLead x.1.lead y.1.lead ∧ x.1.last = y.1.last ∧ IsBare x.1.last ∧
      Ahead x.2 y.2) (qualifiedName? s) (qualifiedName? t) := by
  refine rel_bind (rel_name? h) ?_
  rintro ⟨first, s⟩ ⟨first', t⟩ ⟨rfl, hfirst, h⟩
  have hsecond := rel_secondPart? h
  simp only
  cases hs : secondPart? s with
  | none =>
    rw [hs] at hsecond
    cases ht : secondPart? t with
    | none => exact .some ⟨fun _ _ => rfl, rfl, hfirst, h⟩
    | some y =>
      rw [ht] at hsecond
      cases hsecond
  | some x =>
    rw [hs] at hsecond
    cases ht : secondPart? t with
    | none =>
      rw [ht] at hsecond
      cases hsecond
    | some y =>
      rw [ht] at hsecond
      cases hsecond with
      | some hxy =>
        obtain ⟨hlast, hbare, hrest⟩ := hxy
        refine .some ⟨?_, hlast, hbare, hrest⟩
        intro part hpart
        rw [normalizeName_point hfirst (isPoint_of_secondPart? hs) hpart,
          normalizeName_point hfirst (isPoint_of_secondPart? ht) hpart]

theorem length_dropWhile_lt_iff {p : Char → Bool} {s : Text} :
    (s.dropWhile p).length < s.length ↔ s.takeWhile p ≠ [] := by
  have hlength := congrArg List.length (List.takeWhile_append_dropWhile (p := p) (l := s))
  rw [List.length_append] at hlength
  rw [← List.length_pos_iff]
  omega

theorem rel_usingMethod? {s t : Text} (h : Ahead s t) :
    Option.Rel Alike (usingMethod? s) (usingMethod? t) := by
  refine rel_bind (respects_clause? (by decide) h) fun s t h => ?_
  obtain ⟨htake, hdrop⟩ := h.span (p := isWordChar) (by decide +kernel) fun c => isWordChar_of_isBlank
  simp only [length_dropWhile_lt_iff, htake]
  split
  · exact rel_mark?_paren hdrop.skipBlanks
  · exact .none

theorem rel_indexList? {s t : Text} (h : Ahead s t) :
    Option.Rel Alike (indexList? s) (indexList? t) :=
  rel_orElse (rel_usingMethod? h.skipBlanks) (rel_mark?_paren h.skipBlanks)

theorem rel_fusedMethod? {n s t : Text} (hn : IsBare n) (h : Ahead s t) :
    Option.Rel (fun x y => x.1 = y.1 ∧ IsBare x.1 ∧ Alike x.2 y.2)
      (fusedMethod? n s) (fusedMethod? n t) := by
  induction n with
  | nil => exact .none
  | cons c n ih =>
    obtain ⟨hc, hn⟩ := List.forall_mem_cons.1 hn
    have hrest := ih hn
    rw [fusedMethod?, fusedMethod?]
    generalize fusedMethod? n s = x at hrest
    generalize fusedMethod? n t = y at hrest
    cases hrest with
    | none =>
      refine rel_map (rel_usingMethod? (h.append hn)) fun s t h => ?_
      exact ⟨rfl, List.forall_mem_cons.2 ⟨hc, List.forall_mem_nil _⟩, h⟩
    | some hxy =>
      obtain ⟨hsame, hbare, hrest⟩ := hxy
      exact .some ⟨congrArg (c :: ·) hsame, List.forall_mem_cons.2 ⟨hc, hbare⟩, hrest⟩

def SameTarget (x y : Text × Text) : Prop := normalizeName x.1 = normalizeName y.1 ∧ Alike x.2 y.2

theorem rel_indexTarget? {s t : Text} (h : Ahead s t) :
    Option.Rel SameTarget (indexTarget? s) (indexTarget? t) := by
  refine rel_bind (rel_qualifiedName? h) ?_
  rintro ⟨⟨lead, last⟩, s⟩ ⟨⟨lead', last'⟩, t⟩ ⟨hlead, rfl, hlast, h⟩
  have hlist := rel_indexList? h
  simp only at hlead hlast h hlist ⊢
  generalize indexList? s = x at hlist
  generalize indexList? t = y at hlist
  cases hlist with
  | some h => exact .some ⟨hlead last hlast, h⟩
  | none =>
    simp only
    split
    · exact .none
    · refine rel_bind (rel_fusedMethod? hlast h) ?_
      rintro ⟨before, s⟩ ⟨before', t⟩ ⟨rfl, hbare, h⟩
      exact .some ⟨hlead before hbare, h⟩

theorem rel_onTable? {s t : Text} (h : Ahead s t) :
    Option.Rel SameTarget (onTable? s) (onTable? t) := by
  refine rel_bind (respects_clause? (by decide) h) fun s t h => ?_
  refine rel_orElse ?_ (rel_indexTarget? h)
  exact rel_bind (respects_clause? (by decide) h) fun s t h => rel_indexTarget? h

theorem rel_tableHeader? {s t : Text} (h : Ahead s t) :
    Option.Rel SameTarget (tableHeader? s) (tableHeader? t) := by
  have hclauses : ∀ ws : List Text, (∀ w ∈ ws, ∀ k ∈ w, k.isUpper = true) →
      Respects (firstOf (ws.map fun w => clause? [w])) := by
    intro ws hws
    refine respects_firstOf fun read hread => ?_
    obtain ⟨w, hw, rfl⟩ := List.mem_map.1 hread
    exact respects_clause? (List.forall_mem_singleton.2 (hws w hw))
  refine rel_bind (respects_clause? (by decide) h) fun s t h => ?_
  have h := (h.optional (hclauses ["GLOBAL", "LOCAL"] (by decide))).optional
    (hclauses ["TEMP", "TEMPORARY", "UNLOGGED"] (by decide))
  refine rel_bind (respects_clause? (by decide) h) fun s t h => ?_
  refine rel_bind (rel_qualifiedName? (h.optional (respects_clause? (by decide)))) ?_
  rintro ⟨⟨lead, last⟩, s⟩ ⟨⟨lead', last'⟩, t⟩ ⟨hlead, rfl, hlast, h⟩
  exact rel_bind (rel_mark?_paren h.skipBlanks) fun s t h => .some ⟨hlead last hlast, h⟩

theorem rel_indexHeader? {s t : Text} (h : Ahead s t) :
    Option.Rel (fun x y => (x.1.name = y.1.name ∧ normalizeName x.1.table = normalizeName y.1.table) ∧
      Alike x.2 y.2) (indexHeader? s) (indexHeader? t) := by
  refine rel_bind (respects_clause? (by decide) h) fun s t h => ?_
  have h := (h.optional (@respects_clause? ["CONCURRENTLY"] (by decide))).optional
    (@respects_clause? ["IF", "NOT", "EXISTS"] (by decide))
  refine rel_orElse (rel_bind (rel_name? h) ?_) (rel_map (rel_onTable? h) fun x y h => ⟨⟨rfl, h.1⟩, h.2⟩)
  rintro ⟨n, s⟩ ⟨n', t⟩ ⟨rfl, -, h⟩
  refine rel_bind (respects_blanks? h) fun s t h => ?_
  exact rel_bind (rel_onTable? h) fun x y h => .some ⟨⟨rfl, h.1⟩, h.2⟩

end SchemaDiagram.Sql
