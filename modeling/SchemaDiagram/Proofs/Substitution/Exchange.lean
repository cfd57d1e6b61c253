import SchemaDiagram.Proofs.Substitution.Seam

/-!
Exchanging what stands behind a text that was read. Readers look one character ahead, so where
something of a text is left in front of its end `t`, the same is read with another end `t'`. A clause
of a reference ends with a parenthesis, and nothing behind that matters (`referenceClause?_exchange`).
-/

set_option autoImplicit false

namespace SchemaDiagram.Sql
open Unicode Text

theorem exists_append_of_suffix {r t x : Text} (h : r ++ t <:+ x) :
    ∃ u, x = u ++ t ∧ r <:+ u := by
  obtain ⟨k, rfl⟩ := h
  exact ⟨k ++ r, (List.append_assoc k r t).symm, List.suffix_append k r⟩

section
variable {s r t : Text} (t' : Text)

theorem keyword?_exchange {w : Text} (h : keyword? w (s ++ t) = some (r ++ t)) :
    keyword? w (s ++ t') = some (r ++ t') := by
  induction w generalizing s with
  | nil =>
    have hsame : s = r := List.append_cancel_right (Option.some.inj h)
    subst hsame
    rfl
  | cons k w ih =>
    cases s with
    | nil =>
      have hlength := (keyword?_suffix h).2
      simp only [List.nil_append, List.length_append, List.length_cons] at hlength
      omega
    | cons c s =>
      rw [List.cons_append, keyword?] at h ⊢
      split at h
      · rename_i hc
        rw [if_pos hc]
        exact ih h
      · cases h

theorem mark?_exchange {m : Char} (h : mark? m (s ++ t) = some (r ++ t)) :
    mark? m (s ++ t') = some (r ++ t') := by
  have hcons : s = m :: r := 
    List.append_cancel_right (show s ++ t = m :: r ++ t from eq_cons_of_mark? h)
  subst hcons
  simp [mark?]

theorem exists_of_dropWhile {p : Char → Bool} (hr : r ≠ []) (h : (s ++ t).dropWhile p = r ++ t) :
    ∃ v c u, s = v ++ c :: u ∧ r = c :: u ∧ (∀ d ∈ v, p d = true) ∧ p c = false := by
  obtain ⟨c, u, rfl⟩ := List.exists_cons_of_ne_nil hr
  have hc : p c = false := by
    have hfirst := List.head?_dropWhile_not p (s ++ t)
    rw [h] at hfirst
    simpa using hfirst
  have hsplit := List.takeWhile_append_dropWhile (p := p) (l := s ++ t)
  rw [h, ← List.append_assoc] at hsplit
  exact ⟨_, c, u, (List.append_cancel_right hsplit).symm, rfl,
    fun d hd => List.mem_takeWhile_imp hd, hc⟩

theorem skipBlanks_exchange (hr : r ≠ []) (h : skipBlanks (s ++ t) = r ++ t) :
    skipBlanks (s ++ t') = r ++ t' := by
  obtain ⟨v, c, u, rfl, rfl, hv, hc⟩ := exists_of_dropWhile hr h
  rw [List.append_assoc, skipBlanks, List.dropWhile_append_of_pos hv]
  exact skipBlanks_solid hc (u ++ t')

theorem blanks?_exchange (hr : r ≠ []) (h : blanks? (s ++ t) = some (r ++ t)) :
    blanks? (s ++ t') = some (r ++ t') := by
  cases s with
  | nil =>
    have hlength := (blanks?_suffix h).length_le
    rw [List.nil_append, List.length_append] at hlength
    have hzero : r.length = 0 := by omega
    exact absurd (List.length_eq_zero_iff.1 hzero) hr
  | cons c s =>
    rw [List.cons_append, blanks?] at h ⊢
    split at h
    · rename_i hc
      rw [if_pos hc, skipBlanks_exchange t' hr (Option.some.inj h)]
    · cases h

theorem quotedName?_exchange {v : Text} (h : quotedName? (s ++ t) = some (v, r ++ t)) :
    quotedName? (s ++ t') = some (v, r ++ t') := by
  have hsame : s = v ++ r := by
    refine List.append_cancel_right (show s ++ t = v ++ r ++ t from ?_)
    rw [List.append_assoc, quotedName?_append h]
  subst hsame
  rw [List.append_assoc] at h ⊢
  generalize r ++ t = x at h
  generalize r ++ t' = y
  unfold quotedName? at h
  split at h
  · rename_i u hu
    split at h
    · rename_i c inside d rest htake hdrop
      cases h
      have hnot : '"' ∉ c :: inside := by
        intro hmem
        have hquote := List.mem_takeWhile_imp (htake ▸ hmem)
        simp at hquote
      have hclosed := quotedName?_closed hnot y
      rw [if_neg (List.cons_ne_nil c inside)] at hclosed
      simpa using hclosed
    · cases h
  · cases h

theorem bareName?_exchange {v : Text} (hr : r ≠ []) (h : bareName? (s ++ t) = some (v, r ++ t)) :
    bareName? (s ++ t') = some (v, r ++ t') := by
  cases s with
  | nil =>
    have hlength := congrArg List.length (bareName?_append h)
    simp only [List.nil_append, List.length_append] at hlength
    have hzero : r.length = 0 := by omega
    exact absurd (List.length_eq_zero_iff.1 hzero) hr
  | cons c s =>
    rw [List.cons_append, bareName?] at h ⊢
    split at h
    · rename_i hc
      simp only [Option.some.injEq, Prod.mk.injEq] at h
      obtain ⟨rfl, hdrop⟩ := h
      obtain ⟨v, d, u, rfl, rfl, hv, hd⟩ := exists_of_dropWhile hr hdrop
      simp only [if_pos hc, List.append_assoc, List.cons_append, List.takeWhile_append_of_pos hv,
        List.dropWhile_append_of_pos hv]
      simp [hd]
    · cases h

theorem name?_exchange {v : Text} (hr : r ≠ []) (h : name? (s ++ t) = some (v, r ++ t)) :
    name? (s ++ t') = some (v, r ++ t') := by
  simp only [name?, Option.orElse_eq_orElse, Option.orElse_eq_or, Option.or_eq_some_iff] at h
  rcases h with hquoted | ⟨-, hbare⟩
  · rw [name?, quotedName?_exchange t' hquoted]
    rfl
  · have hbare' := bareName?_exchange t' hr hbare
    -- A bare name does not begin with a quote.
    have hquoted : quotedName? (s ++ t') = none := by
      cases hs : s ++ t' with
      | nil => rfl
      | cons c u =>
        refine quotedName?_eq_none ?_ u
        rintro rfl
        have hstart : ¬ isNameStart '"' = true := by decide
        rw [hs, bareName?, if_neg hstart] at hbare'
        cases hbare'
    rw [name?, hquoted]
    exact hbare'

theorem secondPart?_exchange {p v : Text} (hr : r ≠ [])
    (h : secondPart? (s ++ t) = some (p, v, r ++ t)) :
    secondPart? (s ++ t') = some (p, v, r ++ t') := by
  simp only [secondPart?, Option.bind_eq_bind, Option.bind_eq_some_iff, Option.pure_def,
    Option.some.injEq, Prod.mk.injEq] at h
  obtain ⟨a, hpoint, ⟨n, b⟩, hname, rfl, rfl, rfl⟩ := h
  obtain ⟨z, hz, hrz⟩ := exists_append_of_suffix (name?_suffix hname)
  have hzne : z ≠ [] := fun hnil => hr (List.suffix_nil.1 (hnil ▸ hrz))
  obtain ⟨y, rfl, hzy⟩ := exists_append_of_suffix (hz ▸ skipBlanks_suffix a)
  obtain ⟨x, hx, hyx⟩ := exists_append_of_suffix (mark?_suffix hpoint)
  have hyne : y ≠ [] := fun hnil => hzne (List.suffix_nil.1 (hnil ▸ hzy))
  have hxne : x ≠ [] := fun hnil => hyne (List.suffix_nil.1 (hnil ▸ hyx))
  obtain ⟨s', hs', hxs⟩ := exists_append_of_suffix (hx ▸ skipBlanks_suffix (s ++ t))
  have hss : s = s' := List.append_cancel_right hs'
  subst hss
  rw [hx] at hpoint
  rw [hz] at hname
  have hz' := skipBlanks_exchange t' hzne hz
  have hpart : (s ++ t).take ((s ++ t).length - (z ++ t).length) =
      (s ++ t').take ((s ++ t').length - (z ++ t').length) := by
    obtain ⟨k, rfl⟩ := hzy.trans (hyx.trans hxs)
    simp only [List.append_assoc]
    rw [take_of_eq_append rfl, take_of_eq_append rfl]
  simp only [secondPart?, skipBlanks_exchange t' hxne hx, mark?_exchange t' hpoint, hz',
    name?_exchange t' hr hname, hz, hpart, Option.bind_eq_bind, Option.bind_some]
  rfl

/-- The parenthesis behind a name decides that the name has no further part. -/
theorem qualifiedName?_exchange {n : QualifiedName} {v : Text}
    (h : qualifiedName? (s ++ t) = some (n, r ++ t)) (hopen : skipBlanks (r ++ t) = '(' :: (v ++ t)) :
    qualifiedName? (s ++ t') = some (n, r ++ t') := by
  have hr : r ≠ [] := by
    rintro rfl
    have hlength := (skipBlanks_suffix t).length_le
    rw [List.nil_append] at hopen
    rw [hopen] at hlength
    simp only [List.length_cons, List.length_append] at hlength
    omega
  simp only [qualifiedName?, Option.bind_eq_bind, Option.bind_eq_some_iff] at h
  obtain ⟨⟨first, rest⟩, hfirst, h⟩ := h
  rw [qualifiedName?]
  cases hsecond : secondPart? rest with
  | some q =>
    obtain ⟨point, second, q⟩ := q
    simp only [hsecond, Option.pure_def, Option.some.injEq, Prod.mk.injEq] at h
    obtain ⟨rfl, rfl⟩ := h
    have hsuffix : r ++ t <:+ rest := ⟨_, secondPart?_append hsecond⟩
    obtain ⟨u, rfl, hu⟩ := exists_append_of_suffix hsuffix
    have hune : u ≠ [] := fun hnil => hr (List.suffix_nil.1 (hnil ▸ hu))
    simp [name?_exchange t' hune hfirst, secondPart?_exchange t' hr hsecond]
  | none =>
    simp only [hsecond, Option.pure_def, Option.some.injEq, Prod.mk.injEq] at h
    obtain ⟨rfl, rfl⟩ := h
    have hopen' : skipBlanks (r ++ t') = '(' :: (v ++ t') :=
      skipBlanks_exchange t' (r := '(' :: v) (List.cons_ne_nil _ _) hopen
    have hsecond' : secondPart? (r ++ t') = none := by
      rw [secondPart?, hopen']
      rfl
    simp [name?_exchange t' hr hfirst, hsecond']

theorem referenceClause?_exchange {x : Reference}
    (h : referenceClause? (s ++ t) = some (x, r ++ t)) :
    referenceClause? (s ++ t') = some (x, r ++ t') := by
  simp only [referenceClause?, clause?, Option.bind_eq_bind, Option.bind_eq_some_iff,
    Option.pure_def, Option.some.injEq, Prod.mk.injEq] at h
  obtain ⟨_, ⟨a, ha, b, hb, rfl⟩, ⟨table, d⟩, hd, e, he, ⟨column, f⟩, hf, g, hg, rfl, rfl⟩ := h
  -- Each remainder ends with `t`, from the last one back to the first.
  have hclose : skipBlanks f = ')' :: (r ++ t) := eq_cons_of_mark? hg
  obtain ⟨f, rfl, hrf⟩ := exists_append_of_suffix
    (r := ')' :: r) (t := t) (by simpa [hclose] using skipBlanks_suffix f)
  have hfne : f ≠ [] := fun hnil => List.cons_ne_nil _ _ (List.suffix_nil.1 (hnil ▸ hrf))
  obtain ⟨e', he', hfe⟩ := exists_append_of_suffix (name?_suffix hf)
  have he'ne : e' ≠ [] := fun hnil => hfne (List.suffix_nil.1 (hnil ▸ hfe))
  obtain ⟨e, rfl, hee⟩ := exists_append_of_suffix (he' ▸ skipBlanks_suffix e)
  have hopen : skipBlanks d = '(' :: (e ++ t) := eq_cons_of_mark? he
  obtain ⟨d, rfl, hed⟩ := exists_append_of_suffix
    (r := '(' :: e) (t := t) (by simpa [hopen] using skipBlanks_suffix d)
  have hdne : d ≠ [] := fun hnil => List.cons_ne_nil _ _ (List.suffix_nil.1 (hnil ▸ hed))
  obtain ⟨b, rfl, hdb⟩ := exists_append_of_suffix (qualifiedName?_suffix hd)
  have hbne : b ≠ [] := fun hnil => hdne (List.suffix_nil.1 (hnil ▸ hdb))
  obtain ⟨a, rfl, hba⟩ := exists_append_of_suffix (blanks?_suffix hb)
  have hopen' : skipBlanks (d ++ t') = '(' :: (e ++ t') :=
    skipBlanks_exchange t' (r := '(' :: e) (List.cons_ne_nil _ _) hopen
  have hclose' : skipBlanks (f ++ t') = ')' :: (r ++ t') :=
    skipBlanks_exchange t' (r := ')' :: r) (List.cons_ne_nil _ _) hclose
  rw [he'] at hf
  simp only [referenceClause?, clause?, keyword?_exchange t' ha, blanks?_exchange t' hbne hb,
    qualifiedName?_exchange t' hd hopen, hopen', hclose', mark?, if_true,
    skipBlanks_exchange t' he'ne he', name?_exchange t' hfne hf, Option.bind_eq_bind,
    Option.bind_some]
  rfl

end

end SchemaDiagram.Sql
