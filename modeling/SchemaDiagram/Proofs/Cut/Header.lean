import SchemaDiagram.Proofs.Spacing.Header

/-!
Headers in front of a cut. Words, names and gaps end at a mark, so where a text ends with one,
readers take the same from it whatever follows (`Steady`). Only a quoted name could go on behind
the mark, so the two sides of the cut may not both hold a double quote.
-/

set_option autoImplicit false

namespace SchemaDiagram.Sql
open Text Unicode

/-- A text ends with a mark that no reader but that of the mark itself passes. -/
structure EndsWith (u : Text) (m : Char) : Prop where
  last : u.getLast? = some m
  mark : m = '(' ∨ m = ';'

/-- An end of the text `u`, not the empty one, and the same in front of the text `t`. -/
structure Cut (u t s s' : Text) : Prop where
  suffix : s <:+ u
  ne_nil : s ≠ []
  append : s' = s ++ t

/-- What is read does not depend on what follows the cut, and leaves the cut where it is. -/
def Steady (u t : Text) (read : Text → Option Text) : Prop :=
  ∀ {s s' : Text}, Cut u t s s' → Option.Rel (Cut u t) (read s) (read s')

namespace EndsWith
variable {u : Text} {m : Char} (hu : EndsWith u m)
include hu

theorem classes : isWordChar m = false ∧ isNamePart m = false ∧ isBlank m = false ∧ m ≠ '.' ∧
    m ≠ '"' := by
  rcases hu.mark with rfl | rfl
  · decide +kernel
  · decide +kernel

theorem ne_of_part {p : Char → Bool} (hp : p m = false) {c : Char} (hc : p c = true) : c ≠ m := by
  rintro rfl
  rw [hp] at hc
  cases hc

end EndsWith

section
variable {u t s s' : Text} {m : Char}

theorem Cut.exists_cons (h : Cut u t s s') : ∃ c r, s = c :: r ∧ s' = c :: (r ++ t) := by
  obtain ⟨c, r, rfl⟩ := List.exists_cons_of_ne_nil h.ne_nil
  exact ⟨c, r, rfl, h.append⟩

theorem Cut.inside (h : Cut u t s s') {c : Char} {r : Text} (hr : c :: r <:+ s) :
    Cut u t (c :: r) (c :: r ++ t) :=
  ⟨hr.trans h.suffix, List.cons_ne_nil c r, rfl⟩

theorem Cut.mark_mem (hu : EndsWith u m) (h : Cut u t s s') : m ∈ s := by
  obtain ⟨lead, hlead⟩ := h.suffix
  have hlast : s.getLast? = some m := by
    rw [← hu.last, ← hlead, List.getLast?_append, List.getLast?_eq_some_getLast h.ne_nil,
      Option.some_or]
  exact List.mem_of_getLast? hlast

theorem Cut.tail (hu : EndsWith u m) {c : Char} {r : Text} (h : Cut u t (c :: r) s')
    (hc : c ≠ m) : Cut u t r (r ++ t) := by
  refine ⟨(List.suffix_cons c r).trans h.suffix, ?_, rfl⟩
  rintro rfl
  have hlast := hu.last
  obtain ⟨lead, rfl⟩ := h.suffix
  rw [List.getLast?_concat] at hlast
  exact hc (Option.some.inj hlast)

theorem Cut.span (hu : EndsWith u m) {p : Char → Bool} (hp : p m = false) (h : Cut u t s s') :
    s.takeWhile p = s'.takeWhile p ∧ Cut u t (s.dropWhile p) (s'.dropWhile p) := by
  induction s generalizing s' with
  | nil => exact absurd rfl h.ne_nil
  | cons c s ih =>
    have happend := h.append
    rw [List.cons_append] at happend
    subst happend
    by_cases hc : p c = true
    · obtain ⟨htake, hdrop⟩ := ih (h.tail hu (hu.ne_of_part hp hc))
      rw [List.takeWhile_cons_of_pos hc, List.takeWhile_cons_of_pos hc,
        List.dropWhile_cons_of_pos hc, List.dropWhile_cons_of_pos hc, htake]
      exact ⟨rfl, hdrop⟩
    · rw [List.takeWhile_cons_of_neg hc, List.takeWhile_cons_of_neg hc,
        List.dropWhile_cons_of_neg hc, List.dropWhile_cons_of_neg hc]
      exact ⟨rfl, h⟩

theorem Cut.skipBlanks (hu : EndsWith u m) (h : Cut u t s s') :
    Cut u t (skipBlanks s) (skipBlanks s') :=
  (h.span hu hu.classes.2.2.1).2

theorem Cut.optional (h : Cut u t s s') {read : Text → Option Text} (hread : Steady u t read) :
    Cut u t (optional read s) (optional read s') := by
  have hrel := hread h
  unfold Sql.optional
  generalize read s = x at hrel
  generalize read s' = y at hrel
  cases hrel with
  | none => exact h
  | some h => exact h

theorem Cut.point (hu : EndsWith u m) {v v' : Text} (h : Cut u t s s') (hv : Cut u t v v')
    (hread : mark? '.' (Sql.skipBlanks s) = some v) :
    s.take (s.length - (Sql.skipBlanks v).length) =
      s'.take (s'.length - (Sql.skipBlanks v').length) := by
  obtain ⟨p, hp⟩ :=
    (skipBlanks_suffix v).trans ((mark?_suffix hread).trans (skipBlanks_suffix s))
  have hs' : s' = p ++ Sql.skipBlanks v' := by
    rw [h.append, ← hp, (hv.skipBlanks hu).append, List.append_assoc]
  rw [take_of_eq_append hp.symm, take_of_eq_append hs']

theorem Steady.exists_of_read {read : Text → Option Text} (hread : Steady u t read)
    (h : Cut u t s s') {v : Text} (hv : read s = some v) :
    ∃ v', read s' = some v' ∧ Cut u t v v' := by
  have hrel := hread h
  rw [hv] at hrel
  generalize read s' = y at hrel
  cases hrel with
  | some h => exact ⟨_, rfl, h⟩

end

section
variable {u : Text} {m : Char} (hu : EndsWith u m) (t : Text)
include hu

theorem steady_keyword? {w : Text} (hw : ∀ k ∈ w, k.isUpper = true) : Steady u t (keyword? w) := by
  intro s s' h
  induction w generalizing s s' with
  | nil => exact .some h
  | cons k w ih =>
    obtain ⟨hk, hw⟩ := List.forall_mem_cons.1 hw
    obtain ⟨c, r, rfl, rfl⟩ := h.exists_cons
    rw [keyword?, keyword?]
    split
    · rename_i hc
      refine ih hw (h.tail hu ?_)
      exact hu.ne_of_part hu.classes.1 (isWordChar_of_spells hk hc)
    · exact .none

theorem steady_blanks? : Steady u t blanks? := by
  intro s s' h
  obtain ⟨c, r, rfl, rfl⟩ := h.exists_cons
  rw [blanks?, blanks?]
  split
  · rename_i hc
    exact .some ((h.tail hu (hu.ne_of_part hu.classes.2.2.1 hc)).skipBlanks hu)
  · exact .none

theorem steady_clause? {ws : List Text} (hws : ∀ w ∈ ws, ∀ k ∈ w, k.isUpper = true) :
    Steady u t (clause? ws) := by
  intro s s' h
  induction ws generalizing s s' with
  | nil => exact .some h
  | cons w ws ih =>
    obtain ⟨hw, hws⟩ := List.forall_mem_cons.1 hws
    refine rel_bind (steady_keyword? hu t hw h) fun s s' h => ?_
    exact rel_bind (steady_blanks? hu t h) fun s s' h => ih hws h

theorem steady_firstOf_clause? (ws : List Text) (hws : ∀ w ∈ ws, ∀ k ∈ w, k.isUpper = true) :
    Steady u t (firstOf (ws.map fun w => clause? [w])) := by
  intro s s' h
  induction ws with
  | nil => exact .none
  | cons w ws ih =>
    obtain ⟨hw, hws⟩ := List.forall_mem_cons.1 hws
    exact rel_orElse (steady_clause? hu t (List.forall_mem_singleton.2 hw) h) (ih hws)

theorem steady_mark? {c : Char} (hc : c ≠ m) : Steady u t (mark? c) := by
  intro s s' h
  obtain ⟨d, r, rfl, rfl⟩ := h.exists_cons
  rw [mark?, mark?]
  split
  · rename_i hd
    exact .some (h.tail hu (hd ▸ hc))
  · exact .none

theorem rel_bareName?_cut {s s' : Text} (h : Cut u t s s') :
    Option.Rel (fun x y => x.1 = y.1 ∧ Cut u t x.2 y.2) (bareName? s) (bareName? s') := by
  obtain ⟨c, r, rfl, rfl⟩ := h.exists_cons
  rw [bareName?, bareName?]
  split
  · rename_i hc
    have hpart : isNamePart c = true := by simp [isNamePart, hc]
    obtain ⟨htake, hdrop⟩ :=
      (h.tail hu (hu.ne_of_part hu.classes.2.1 hpart)).span hu hu.classes.2.1
    exact .some ⟨congrArg (c :: ·) htake, hdrop⟩
  · exact .none

end

theorem quotedName?_open {r : Text} (hr : '"' ∉ r) : quotedName? ('"' :: r) = none := by
  have hdrop : r.dropWhile (· ≠ '"') = [] := by
    refine List.dropWhile_eq_nil_iff.2 fun c hc => decide_eq_true ?_
    exact ne_of_mem_of_not_mem hc hr
  unfold quotedName?
  split
  · rename_i heq
    cases heq
    rw [hdrop]
    cases r.takeWhile (· ≠ '"') <;> rfl
  · rfl

theorem quotedName?_closed {v : Text} (hv : '"' ∉ v) (w : Text) :
    quotedName? ('"' :: (v ++ '"' :: w)) =
      if v = [] then none else some ('"' :: (v ++ ['"']), w) := by
  have hall : ∀ c ∈ v, decide (c ≠ '"') = true := fun c hc => decide_eq_true (ne_of_mem_of_not_mem hc hv)
  have htake : (v ++ '"' :: w).takeWhile (· ≠ '"') = v := by
    rw [List.takeWhile_append_of_pos hall]
    simp
  have hdrop : (v ++ '"' :: w).dropWhile (· ≠ '"') = '"' :: w := by
    rw [List.dropWhile_append_of_pos hall]
    simp
  simp only [quotedName?, htake, hdrop]
  cases v <;> simp

section
variable {u t : Text} {m : Char} (hu : EndsWith u m) (hquote : '"' ∉ u ∨ '"' ∉ t)
include hu hquote

/-- A quoted name ends in front of the cut, or nowhere. -/
theorem rel_quotedName?_cut {s s' : Text} (h : Cut u t s s') :
    Option.Rel (fun x y => x.1 = y.1 ∧ Cut u t x.2 y.2) (quotedName? s) (quotedName? s') := by
  obtain ⟨c, r, rfl, rfl⟩ := h.exists_cons
  by_cases hc : c = '"'
  · subst hc
    have hm := hu.classes.2.2.2.2.symm
    have hrest : Cut u t r (r ++ t) := h.tail hu hm
    by_cases hr : '"' ∈ r
    · obtain ⟨v, w, rfl, hv⟩ := List.eq_append_cons_of_mem hr
      have hclose : Cut u t ('"' :: w) ('"' :: w ++ t) := hrest.inside (List.suffix_append v _)
      rw [List.append_assoc, List.cons_append, quotedName?_closed hv, quotedName?_closed hv]
      split
      · exact .none
      · exact .some ⟨rfl, hclose.tail hu hm⟩
    · have ht : '"' ∉ t := hquote.resolve_left fun hnot => hnot (h.suffix.subset List.mem_cons_self)
      rw [quotedName?_open hr, quotedName?_open (by simp [hr, ht])]
      exact .none
  · rw [quotedName?_eq_none hc, quotedName?_eq_none hc]
    exact .none

theorem rel_name?_cut {s s' : Text} (h : Cut u t s s') :
    Option.Rel (fun x y => x.1 = y.1 ∧ Cut u t x.2 y.2) (name? s) (name? s') :=
  rel_orElse (rel_quotedName?_cut hu hquote h) (rel_bareName?_cut hu t h)

theorem rel_secondPart?_cut {s s' : Text} (h : Cut u t s s') :
    Option.Rel (fun x y => x.1 = y.1 ∧ x.2.1 = y.2.1 ∧ Cut u t x.2.2 y.2.2)
      (secondPart? s) (secondPart? s') := by
  have hpoint := steady_mark? hu t hu.classes.2.2.2.1.symm (h.skipBlanks hu)
  unfold secondPart?
  generalize hx : mark? '.' (skipBlanks s) = x at hpoint
  generalize hy : mark? '.' (skipBlanks s') = y at hpoint
  cases hpoint with
  | none => exact .none
  | @some v v' hv =>
    refine rel_bind (rel_name?_cut hu hquote (hv.skipBlanks hu)) ?_
    rintro ⟨n, r⟩ ⟨n', r'⟩ ⟨rfl, hr⟩
    exact .some ⟨h.point hu hv hx, rfl, hr⟩

theorem rel_qualifiedName?_cut {s s' : Text} (h : Cut u t s s') :
    Option.Rel (fun x y => x.1 = y.1 ∧ Cut u t x.2 y.2) (qualifiedName? s) (qualifiedName? s') := by
  refine rel_bind (rel_name?_cut hu hquote h) ?_
  rintro ⟨first, s⟩ ⟨first', s'⟩ ⟨rfl, h⟩
  have hsecond := rel_secondPart?_cut hu hquote h
  simp only at h hsecond ⊢
  generalize secondPart? s = x at hsecond
  generalize secondPart? s' = y at hsecond
  cases hsecond with
  | none => exact .some ⟨rfl, h⟩
  | @some x y hxy =>
    obtain ⟨point, second, r⟩ := x
    obtain ⟨point', second', r'⟩ := y
    obtain ⟨rfl, rfl, hr⟩ := hxy
    exact .some ⟨rfl, hr⟩

end

section
variable {u t : Text} (hu : EndsWith u ';')
include hu

theorem steady_paren : Steady u t (mark? '(') := steady_mark? hu t (by decide)

theorem steady_usingMethod? : Steady u t usingMethod? := by
  intro s s' h
  refine rel_bind (steady_clause? hu t (by decide) h) fun s s' h => ?_
  obtain ⟨htake, hdrop⟩ := h.span hu hu.classes.1
  simp only [length_dropWhile_lt_iff, htake]
  split
  · exact steady_paren hu (hdrop.skipBlanks hu)
  · exact .none

theorem steady_indexList? : Steady u t indexList? := by
  intro s s' h
  exact rel_orElse (steady_usingMethod? hu (h.skipBlanks hu)) (steady_paren hu (h.skipBlanks hu))

theorem rel_fusedMethod?_cut {n s s' : Text} (hn : n ++ s <:+ u) (h : Cut u t s s') :
    Option.Rel (fun x y => x.1 = y.1 ∧ Cut u t x.2 y.2) (fusedMethod? n s) (fusedMethod? n s') := by
  induction n with
  | nil => exact .none
  | cons c n ih =>
    have hsuffix : n ++ s <:+ u := (List.suffix_cons c _).trans hn
    have hrest := ih hsuffix
    rw [fusedMethod?, fusedMethod?]
    generalize fusedMethod? n s = x at hrest
    generalize fusedMethod? n s' = y at hrest
    cases hrest with
    | none =>
      have hcut : Cut u t (n ++ s) (n ++ s') :=
        ⟨hsuffix, List.append_ne_nil_of_right_ne_nil n h.ne_nil, by rw [h.append, List.append_assoc]⟩
      exact rel_map (steady_usingMethod? hu hcut) fun r r' hr => ⟨rfl, hr⟩
    | some hxy => exact .some ⟨congrArg (c :: ·) hxy.1, hxy.2⟩

variable (hquote : '"' ∉ u ∨ '"' ∉ t)
include hquote

theorem rel_indexTarget?_cut {s s' : Text} (h : Cut u t s s') :
    Option.Rel (fun x y => x.1 = y.1 ∧ Cut u t x.2 y.2) (indexTarget? s) (indexTarget? s') := by
  have hname := rel_qualifiedName?_cut hu hquote h
  unfold indexTarget?
  generalize hx : qualifiedName? s = x at hname
  generalize qualifiedName? s' = y at hname
  cases hname with
  | none => exact .none
  | @some x y hxy =>
    obtain ⟨name, r⟩ := x
    obtain ⟨name', r'⟩ := y
    obtain ⟨rfl, hr⟩ := hxy
    have hlist := steady_indexList? hu hr
    simp only [Option.bind_eq_bind, Option.bind_some] at hr hlist ⊢
    generalize indexList? r = x at hlist
    generalize indexList? r' = y at hlist
    cases hlist with
    | some h => exact .some ⟨rfl, h⟩
    | none =>
      simp only
      split
      · exact .none
      · have hlast : name.last ++ r <:+ u := by
          refine List.IsSuffix.trans ?_ h.suffix
          rw [← qualifiedName?_append hx, QualifiedName.text, List.append_assoc]
          exact List.suffix_append _ _
        refine rel_bind (rel_fusedMethod?_cut hu hlast hr) ?_
        rintro ⟨before, v⟩ ⟨before', v'⟩ ⟨rfl, hv⟩
        exact .some ⟨rfl, hv⟩

theorem rel_onTable?_cut {s s' : Text} (h : Cut u t s s') :
    Option.Rel (fun x y => x.1 = y.1 ∧ Cut u t x.2 y.2) (onTable? s) (onTable? s') := by
  refine rel_bind (steady_clause? hu t (by decide) h) fun s s' h => ?_
  refine rel_orElse ?_ (rel_indexTarget?_cut hu hquote h)
  exact rel_bind (steady_clause? hu t (by decide) h) fun s s' h => rel_indexTarget?_cut hu hquote h

theorem rel_tableHeader?_cut {s s' : Text} (h : Cut u t s s') :
    Option.Rel (fun x y => x.1 = y.1 ∧ Cut u t x.2 y.2) (tableHeader? s) (tableHeader? s') := by
  refine rel_bind (steady_clause? hu t (by decide) h) fun s s' h => ?_
  have h := (h.optional (steady_firstOf_clause? hu t ["GLOBAL", "LOCAL"] (by decide))).optional
    (steady_firstOf_clause? hu t ["TEMP", "TEMPORARY", "UNLOGGED"] (by decide))
  refine rel_bind (steady_clause? hu t (by decide) h) fun s s' h => ?_
  refine rel_bind (rel_qualifiedName?_cut hu hquote
    (h.optional (steady_clause? hu t (by decide)))) ?_
  rintro ⟨name, s⟩ ⟨name', s'⟩ ⟨rfl, h⟩
  exact rel_bind (steady_paren hu (h.skipBlanks hu)) fun s s' h => .some ⟨rfl, h⟩

theorem rel_indexHeader?_cut {s s' : Text} (h : Cut u t s s') :
    Option.Rel (fun x y => x.1 = y.1 ∧ Cut u t x.2 y.2) (indexHeader? s) (indexHeader? s') := by
  refine rel_bind (steady_clause? hu t (by decide) h) fun s s' h => ?_
  have h := (h.optional (@steady_clause? u ';' hu t ["CONCURRENTLY"] (by decide))).optional
    (@steady_clause? u ';' hu t ["IF", "NOT", "EXISTS"] (by decide))
  refine rel_orElse (rel_bind (rel_name?_cut hu hquote h) ?_)
    (rel_map (rel_onTable?_cut hu hquote h) ?_)
  · rintro ⟨name, s⟩ ⟨name', s'⟩ ⟨rfl, h⟩
    refine rel_bind (steady_blanks? hu t h) fun s s' h => ?_
    refine rel_bind (rel_onTable?_cut hu hquote h) ?_
    rintro ⟨table, s⟩ ⟨table', s'⟩ ⟨rfl, h⟩
    exact .some ⟨rfl, h⟩
  · rintro ⟨table, s⟩ ⟨table', s'⟩ ⟨rfl, h⟩
    exact ⟨rfl, h⟩

end

section
variable {u t s s' : Text} (hu : EndsWith u '(') (h : Cut u t s s')
include hu h

theorem quotedName?_cut {n r : Text} (hread : quotedName? s = some (n, r)) :
    ∃ r', quotedName? s' = some (n, r') ∧ Cut u t r r' := by
  obtain ⟨c, v, rfl, rfl⟩ := h.exists_cons
  by_cases hc : c = '"'
  · subst hc
    by_cases hv : '"' ∈ v
    · obtain ⟨v, w, rfl, hnot⟩ := List.eq_append_cons_of_mem hv
      have hclose : Cut u t ('"' :: w) ('"' :: w ++ t) :=
        h.inside ((List.suffix_append v _).trans (List.suffix_cons '"' _))
      rw [List.append_assoc, List.cons_append, quotedName?_closed hnot]
      rw [quotedName?_closed hnot] at hread
      split at hread
      · cases hread
      · rename_i hne
        cases hread
        exact ⟨_, if_neg hne, hclose.tail hu (by decide)⟩
    · rw [quotedName?_open hv] at hread
      cases hread
  · rw [quotedName?_eq_none hc] at hread
    cases hread

theorem name?_cut {n r : Text} (hread : name? s = some (n, r)) :
    ∃ r', name? s' = some (n, r') ∧ Cut u t r r' := by
  simp only [name?, Option.orElse_eq_orElse, Option.orElse_eq_or, Option.or_eq_some_iff] at hread
  rcases hread with hquoted | ⟨-, hbare⟩
  · obtain ⟨r', hquoted', hr⟩ := quotedName?_cut hu h hquoted
    exact ⟨r', by rw [name?, hquoted']; rfl, hr⟩
  · have hrel := rel_bareName?_cut hu t h
    obtain ⟨c, v, rfl, rfl⟩ := h.exists_cons
    have hc : c ≠ '"' := by
      rintro rfl
      have hstart : ¬ isNameStart '"' = true := by decide +kernel
      rw [bareName?, if_neg hstart] at hbare
      cases hbare
    rw [hbare] at hrel
    rw [name?, quotedName?_eq_none hc]
    generalize bareName? (c :: (v ++ t)) = y at hrel ⊢
    cases hrel with
    | @some _ y hxy =>
      obtain ⟨n', r'⟩ := y
      obtain ⟨rfl, hr⟩ := hxy
      exact ⟨r', rfl, hr⟩

theorem secondPart?_cut {p n r : Text} (hread : secondPart? s = some (p, n, r)) :
    ∃ r', secondPart? s' = some (p, n, r') ∧ Cut u t r r' := by
  simp only [secondPart?, Option.bind_eq_bind, Option.bind_eq_some_iff, Option.pure_def,
    Option.some.injEq, Prod.mk.injEq] at hread
  obtain ⟨v, hpoint, ⟨n, r⟩, hname, rfl, rfl, rfl⟩ := hread
  have hmark : Steady u t (mark? '.') := steady_mark? hu t (by decide)
  obtain ⟨v', hpoint', hv⟩ := hmark.exists_of_read (h.skipBlanks hu) hpoint
  obtain ⟨r', hname', hr⟩ := name?_cut hu (hv.skipBlanks hu) hname
  refine ⟨r', ?_, hr⟩
  rw [secondPart?, hpoint']
  simp only [Option.bind_eq_bind, Option.bind_some, hname', h.point hu hv hpoint]
  rfl

theorem qualifiedName?_cut {n : QualifiedName} {r v : Text} (hread : qualifiedName? s = some (n, r))
    (hopen : mark? '(' (skipBlanks r) = some v) :
    ∃ r', qualifiedName? s' = some (n, r') ∧ Cut u t r r' := by
  simp only [qualifiedName?, Option.bind_eq_bind, Option.bind_eq_some_iff] at hread
  obtain ⟨⟨first, rest⟩, hfirst, hread⟩ := hread
  obtain ⟨rest', hfirst', hrest⟩ := name?_cut hu h hfirst
  rw [qualifiedName?, hfirst']
  cases hsecond : secondPart? rest with
  | some q =>
    obtain ⟨point, second, q⟩ := q
    obtain ⟨q', hsecond', hq⟩ := secondPart?_cut hu hrest hsecond
    rw [hsecond] at hread
    cases hread
    exact ⟨q', by simp [hsecond'], hq⟩
  | none =>
    rw [hsecond] at hread
    cases hread
    have hsecond' : secondPart? rest' = none := by
      obtain ⟨c, w, hc, hc'⟩ := (hrest.skipBlanks hu).exists_cons
      have hparen : c = '(' := by
        rw [hc, mark?] at hopen
        by_contra hne
        rw [if_neg hne] at hopen
        cases hopen
      rw [secondPart?, hc', hparen]
      rfl
    exact ⟨rest', by simp [hsecond'], hrest⟩

end

end SchemaDiagram.Sql
