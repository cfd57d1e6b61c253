import SchemaDiagram.Proofs.Substitution.Reference

/-!
Name and type in front of a mark. They are read in the same way whatever stands behind the mark
(`columnHead?_exchange`), but for two cases: the parameters of a type take everything up to the next
closing parenthesis, and the precision of a time may begin with the mark itself.
-/

set_option autoImplicit false

namespace SchemaDiagram.Sql
open Unicode Text

theorem trimStart_append_mark {m : Char} (hm : isBlank m = false) (s t : Text) :
    trimStart (s ++ m :: t) = trimStart s ++ m :: t := skipBlanks_append_mark hm s t

theorem trimEnd_append_mark {m : Char} (hm : isBlank m = false) (s t : Text) :
    trimEnd (s ++ m :: t) = s ++ m :: trimEnd t := by
  have hreverse : (s ++ m :: t).reverse = t.reverse ++ m :: s.reverse := by simp
  rw [trimEnd, hreverse, dropWhile_append_mark hm]
  simp [trimEnd]

theorem mem_trimEnd_iff {s : Text} {c : Char} (hc : isBlank c = false) : c ∈ trimEnd s ↔ c ∈ s := by
  rw [trimEnd, List.mem_reverse]
  exact (mem_skipBlanks_iff hc).trans List.mem_reverse

theorem trim_marks {m k : Char} (hm : isBlank m = false) (hk : isBlank k = false) (x e y : Text) :
    trim (x ++ m :: (e ++ k :: y)) = trimStart x ++ m :: (e ++ k :: trimEnd y) := by
  rw [trim, trimStart_append_mark hm, ← List.cons_append, ← List.append_assoc, trimEnd_append_mark hk]
  simp

/-- A mark that belongs to no type, except that an opening parenthesis begins its parameters. -/
structure EndsType (m : Char) : Prop where
  word : isWordChar m = false
  blank : isBlank m = false
  start : isNameStart m = false
  part : isTypePart m = false
  digit : isNameDigit m = false
  mark : m ≠ '.' ∧ m ≠ ')' ∧ m ≠ '[' ∧ m ≠ ']'

theorem endsType_quote : EndsType '\'' := by constructor <;> decide

theorem endsType_paren : EndsType '(' := by constructor <;> decide

theorem stopsAt_mark? {m c : Char} {s : Text} (h : m ≠ c ∨ s ≠ []) : StopsAt m (mark? c) s := by
  intro t
  cases s with
  | nil =>
    have hne : m ≠ c := h.resolve_right fun hs => hs rfl
    simp [mark?, hne]
  | cons d s =>
    rw [List.cons_append, mark?, mark?]
    split <;> rfl

section
variable {m : Char} (hm : EndsType m)
include hm

theorem stopsAt_typeWord? (s : Text) : StopsAt m typeWord? s := by
  intro t
  cases s with
  | nil => simp [typeWord?, hm.start]
  | cons c s =>
    rw [List.cons_append, typeWord?, typeWord?, dropWhile_append_mark hm.part]
    split <;> rfl

theorem stopsAt_simpleType? (s : Text) : StopsAt m simpleType? s := by
  refine (stopsAt_typeWord? hm s).bind fun r _ t => ?_
  have hpoint : StopsAt m (fun t => do typeWord? (← mark? '.' t)) r :=
    (stopsAt_mark? (.inl hm.mark.1)).bind fun u _ => stopsAt_typeWord? hm u
  simp only [hpoint.optional]
  rfl

theorem stopsAt_precision? {s : Text} (h : m ≠ '(' ∨ skipBlanks s ≠ []) :
    StopsAt m precision? s := by
  have hskip := skipBlanks_append_mark hm.blank
  have hopen : StopsAt m (fun s => mark? '(' (skipBlanks s)) s :=
    (stopsAt_mark? h).behind (hskip s)
  refine hopen.bind fun r _ t => ?_
  have hdigits := dropWhile_append_mark hm.digit (skipBlanks r) t
  have hclose : StopsAt m (fun s => mark? ')' (skipBlanks s)) ((skipBlanks r).dropWhile isNameDigit) :=
    (stopsAt_mark? (.inl hm.mark.2.1)).behind (hskip _)
  simp only [hskip, hdigits, List.length_append, Nat.add_lt_add_iff_right]
  split
  · rw [← hskip]
    exact hclose t
  · rfl

theorem stopsAt_either {v w : Text} (hv : ∀ k ∈ v, k.isUpper = true)
    (hw : ∀ k ∈ w, k.isUpper = true) (s : Text) :
    StopsAt m (fun s => keyword? v s <|> keyword? w s) s :=
  (stopsAt_keyword? hm.word hv s).orElse (stopsAt_keyword? hm.word hw s)

theorem stopsAt_zonedTime? {s : Text}
    (h : m ≠ '(' ∨ ∀ r, (keyword? "TIMESTAMP" s <|> keyword? "TIME" s) = some r → skipBlanks r ≠ []) :
    StopsAt m zonedTime? s := by
  refine (stopsAt_either hm (by decide) (by decide) s).bind fun r hr => ?_
  have hprecision : StopsAt m precision? r := stopsAt_precision? hm (h.imp_right fun h => h r hr)
  have hblanks : StopsAt m (fun s => blanks? (optional precision? s)) r :=
    (stopsAt_blanks? hm.blank _).behind hprecision.optional
  refine hblanks.bind fun u _ => ?_
  refine (stopsAt_either hm (by decide) (by decide) u).bind fun v _ => ?_
  refine (stopsAt_blanks? hm.blank v).bind fun x _ => ?_
  exact stopsAt_phrase? hm.word hm.blank (by decide) (by decide) x

theorem stopsAt_typeName? {s : Text}
    (h : m ≠ '(' ∨ ∀ r, (keyword? "TIMESTAMP" s <|> keyword? "TIME" s) = some r → skipBlanks r ≠ []) :
    StopsAt m typeName? s := by
  have hphrase : ∀ v w : Text, (∀ x ∈ [v, w], ∀ k ∈ x, k.isUpper = true) →
      StopsAt m (phrase? [v, w]) s :=
    fun v w hvw => stopsAt_phrase? hm.word hm.blank (List.cons_ne_nil v [w]) hvw s
  exact (hphrase _ _ (by decide)).orElse ((hphrase _ _ (by decide)).orElse
    ((hphrase _ _ (by decide)).orElse ((stopsAt_zonedTime? hm h).orElse (stopsAt_simpleType? hm s))))

theorem stopsAt_arrayMark? (s : Text) : StopsAt m arrayMark? s := by
  have hskip := skipBlanks_append_mark hm.blank
  have hopen : StopsAt m (fun s => mark? '[' (skipBlanks s)) s :=
    (stopsAt_mark? (.inl hm.mark.2.2.1)).behind (hskip s)
  refine hopen.bind fun r _ t => ?_
  have hdigits := dropWhile_append_mark hm.digit (skipBlanks r) t
  simp only [hskip, hdigits]
  exact stopsAt_mark? (.inl hm.mark.2.2.2) t

theorem skipArrayMarks_append_mark (s t : Text) :
    skipArrayMarks (s ++ m :: t) = skipArrayMarks s ++ m :: t := by
  fun_induction skipArrayMarks s with
  | case1 s r h ih => rw [skipArrayMarks_eq, stopsAt_arrayMark? hm s t, h, ← ih]; rfl
  | case2 s h => rw [skipArrayMarks_eq, stopsAt_arrayMark? hm s t, h]; rfl

end

def skipParameters (s : Text) : Text := optional (fun t => (parenthesized? t).map Prod.snd) s

theorem skipParameters_suffix (s : Text) : skipParameters s <:+ s := by
  refine optional_suffix ?_ s
  intro u v hv
  obtain ⟨w, hw, rfl⟩ := Option.map_eq_some_iff.1 hv
  exact (parenthesized?_subset hw).2

theorem parenthesized?_skipBlanks (s : Text) : parenthesized? (skipBlanks s) = parenthesized? s := by
  rw [parenthesized?, parenthesized?, skipBlanks_skipBlanks]

theorem skipParameters_eq (s : Text) :
    skipParameters s = ((parenthesized? (skipBlanks s)).map Prod.snd).getD s := by
  rw [parenthesized?_skipBlanks]
  rfl

theorem parenthesized?_of_ne {c : Char} (hblank : isBlank c = false) (hc : c ≠ '(') (s : Text) :
    parenthesized? (c :: s) = none := by
  simp [parenthesized?, skipBlanks_solid hblank, mark?, hc]

theorem parenthesized?_unclosed {s : Text} (hs : ')' ∉ s) : parenthesized? ('(' :: s) = none := by
  have hopen : mark? '(' (skipBlanks ('(' :: s)) = some s := rfl
  have hdrop : s.dropWhile (· ≠ ')') = [] := by
    refine List.dropWhile_eq_nil_iff.2 fun c hc => decide_eq_true ?_
    exact ne_of_mem_of_not_mem hc hs
  simp only [parenthesized?, hopen, hdrop, Option.bind_eq_bind, Option.bind_some]
  rfl

theorem skipParameters_cases {m : Char} (hm : EndsType m) (s : Text) :
    (∃ u, ∀ t, skipParameters (s ++ m :: t) = u ++ m :: t) ∨
      ∃ v, ')' ∉ v ∧ ∀ t, skipBlanks (s ++ m :: t) = '(' :: (v ++ t) := by
  have hskip := skipBlanks_append_mark hm.blank s
  have hnone : ∀ {c : Char} {v : Text}, isBlank c = false → c ≠ '(' →
      (∀ t, skipBlanks (s ++ m :: t) = c :: (v ++ t)) →
        ∃ u, ∀ t, skipParameters (s ++ m :: t) = u ++ m :: t := by
    intro c v hc hparen hall
    refine ⟨s, fun t => ?_⟩
    rw [skipParameters_eq, hall, parenthesized?_of_ne hc hparen]
    rfl
  cases hs : skipBlanks s with
  | nil =>
    rw [hs] at hskip
    by_cases hparen : m = '('
    · exact .inr ⟨[], List.not_mem_nil, hparen ▸ hskip⟩
    · exact .inl (hnone (v := []) hm.blank hparen hskip)
  | cons d v =>
    rw [hs] at hskip
    have hd : isBlank d = false := by
      have hfirst := List.head?_dropWhile_not isBlank s
      rw [show s.dropWhile isBlank = d :: v from hs] at hfirst
      simpa using hfirst
    by_cases hparen : d = '('
    · subst hparen
      by_cases hv : ')' ∈ v
      · obtain ⟨i, u, rfl, hi⟩ := List.eq_append_cons_of_mem hv
        refine .inl ⟨u, fun t => ?_⟩
        have htext : skipBlanks (s ++ m :: t) = '(' :: (i ++ ')' :: (u ++ m :: t)) := by simp [hskip t]
        rw [skipParameters_eq, htext, parenthesized?_of_not_mem hi]
        rfl
      · refine .inr ⟨v ++ [m], by simp [hv, hm.mark.2.1.symm], fun t => ?_⟩
        simp [hskip t]
    · exact .inl (hnone (v := v ++ [m]) hd hparen fun t => by simp [hskip t])

/-- Parameters that leave the mark where it is do not depend on what stands behind it, unless a group
that is not closed so far is closed there. -/
theorem skipParameters_exchange {m : Char} (hm : EndsType m) {s r t t' : Text}
    (ht : ')' ∈ t' → ')' ∈ t) (h : skipParameters (s ++ m :: t) = r ++ m :: t) :
    skipParameters (s ++ m :: t') = r ++ m :: t' := by
  rcases skipParameters_cases hm s with ⟨u, hall⟩ | ⟨v, hv, hall⟩
  · rw [hall] at h
    rw [hall, List.append_cancel_right h]
  · have hopen : ∀ t, ')' ∉ t → skipParameters (s ++ m :: t) = s ++ m :: t := by
      intro t hmem
      rw [skipParameters_eq, hall, parenthesized?_unclosed (by simp [hv, hmem])]
      rfl
    have hmem : ')' ∉ t := by
      intro hmem
      obtain ⟨i, u, rfl, hi⟩ := List.eq_append_cons_of_mem hmem
      have htext : v ++ (i ++ ')' :: u) = (v ++ i) ++ ')' :: u := by simp
      rw [skipParameters_eq, hall, htext,
        parenthesized?_of_not_mem (by simp [hv, hi])] at h
      have hlength := congrArg List.length (show u = r ++ m :: (i ++ ')' :: u) from h)
      simp only [List.length_append, List.length_cons] at hlength
      omega
    rw [hopen t hmem] at h
    rw [hopen t' (mt ht hmem), List.append_cancel_right h]

theorem dataType?_eq (s : Text) :
    dataType? s = (typeName? s).map fun named =>
      (s.take (s.length - (skipArrayMarks (skipParameters named)).length),
        skipArrayMarks (skipParameters named)) := by
  unfold dataType?
  cases typeName? s <;> rfl

section
variable {m : Char} (hm : EndsType m) {p t t' : Text} (ht : ')' ∈ t' → ')' ∈ t)
include hm ht

theorem dataType?_exchange {s ty : Text} (hstops : StopsAt m typeName? s)
    (h : dataType? (s ++ m :: t) = some (ty, p ++ m :: t)) :
    dataType? (s ++ m :: t') = some (ty, p ++ m :: t') := by
  rw [dataType?_eq, hstops t, Option.map_map] at h
  rw [dataType?_eq, hstops t', Option.map_map]
  obtain ⟨named, hnamed, h⟩ := Option.map_eq_some_iff.1 h
  simp only [Function.comp_apply, Prod.mk.injEq] at h
  obtain ⟨hty, hrest⟩ := h
  obtain ⟨u, hu, hpu⟩ := exists_append_of_suffix (hrest ▸ skipArrayMarks_suffix _)
  have hu' := skipParameters_exchange hm ht hu
  have hrest' : skipArrayMarks (skipParameters (named ++ m :: t')) = p ++ m :: t' := by
    rw [hu, skipArrayMarks_append_mark hm] at hrest
    rw [hu', skipArrayMarks_append_mark hm, List.append_cancel_right hrest]
  have hsuffix : p ++ m :: t <:+ s ++ m :: t := by
    have hnamed' : typeName? (s ++ m :: t) = some (named ++ m :: t) := by rw [hstops t, hnamed]; rfl
    exact hrest ▸ (skipArrayMarks_suffix _).trans ((skipParameters_suffix _).trans
      (shrinks_typeName? _ _ hnamed'))
  obtain ⟨s', hs', v, hv⟩ := exists_append_of_suffix hsuffix
  have hsame : s = v ++ p := (List.append_cancel_right hs').trans hv.symm
  subst hsame
  rw [hrest, List.append_assoc, take_of_eq_append rfl] at hty
  rw [hnamed, Option.map_some, Function.comp_apply, hrest', List.append_assoc, take_of_eq_append rfl,
    hty]

theorem columnHead?_exchange {s n ty : Text} (hstops : ∀ u, p <:+ u → StopsAt m typeName? u)
    (h : columnHead? (s ++ m :: t) = some (n, ty, p ++ m :: t)) :
    columnHead? (s ++ m :: t') = some (n, ty, p ++ m :: t') := by
  obtain ⟨name, a, b, hname, hblanks, htype, rfl⟩ := columnHead?_eq_some_iff.1 h
  obtain ⟨b, rfl, hpb⟩ := exists_append_of_suffix (dataType?_subset htype).2
  obtain ⟨a, rfl, -⟩ := exists_append_of_suffix (blanks?_suffix hblanks)
  have hmark : ∀ u : Text, u ++ [m] ≠ [] := fun u => List.append_ne_nil_of_right_ne_nil u (by simp)
  have hname' : name? (s ++ m :: t') = some (name, a ++ m :: t') := by
    rw [List.append_cons s, List.append_cons a] at hname ⊢
    exact name?_exchange t' (hmark a) hname
  have hblanks' : blanks? (a ++ m :: t') = some (b ++ m :: t') := by
    rw [List.append_cons a, List.append_cons b] at hblanks ⊢
    exact blanks?_exchange t' (hmark b) hblanks
  have htype' := dataType?_exchange hm ht (hstops b hpb) htype
  exact columnHead?_eq_some_iff.2 ⟨name, _, _, hname', hblanks', htype', rfl⟩

end

end SchemaDiagram.Sql
