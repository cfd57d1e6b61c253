import SchemaDiagram.Proofs.Pieces
import SchemaDiagram.Sql.TableBody

/-!
What a reader takes is made of characters of its text, and what it leaves is an end of it. Only
names get a point of their own, between their parts, and only collapsing gives spaces for blanks.
-/

set_option autoImplicit false

namespace SchemaDiagram

namespace Text
open Unicode

theorem trim_subset (s : Text) : trim s ⊆ s := by
  intro c hc
  have hstart := (List.dropWhile_sublist isBlank).mem (List.mem_reverse.1 hc)
  exact (List.dropWhile_sublist isBlank).mem (List.mem_reverse.1 hstart)

theorem subset_of_mem_splitWith {σ : Type} {step : σ → Char → σ} {cut : σ → Char → Bool} {st : σ}
    {s w : Text} (h : w ∈ (splitWith step cut st s).1 :: (splitWith step cut st s).2) : w ⊆ s := by
  induction s generalizing st w with
  | nil =>
    rw [List.mem_singleton.1 h]
    exact List.Subset.refl []
  | cons c s ih =>
    simp only [splitWith] at h
    split at h
    · rcases List.mem_cons.1 h with rfl | h
      · exact List.nil_subset _
      · exact List.subset_cons_of_subset c (ih h)
    · rcases List.mem_cons.1 h with rfl | h
      · exact List.cons_subset_cons c (ih List.mem_cons_self)
      · exact List.subset_cons_of_subset c (ih (List.mem_cons_of_mem _ h))

theorem subset_of_mem_splitAt {p : Char → Bool} {s w : Text} (h : w ∈ splitAt p s) : w ⊆ s :=
  subset_of_mem_splitWith h

theorem not_of_mem_splitAt {p : Char → Bool} {s w : Text} (h : w ∈ splitAt p s) :
    ∀ c ∈ w, p c = false := by
  induction s generalizing w with
  | nil =>
    rw [List.mem_singleton.1 h]
    exact List.forall_mem_nil _
  | cons d s ih =>
    obtain ⟨v, vs, hsplit⟩ : ∃ v vs, splitAt p s = v :: vs := ⟨_, _, rfl⟩
    rw [splitAt_cons, hsplit] at h
    rw [hsplit] at ih
    split at h
    · rcases List.mem_cons.1 h with rfl | h
      · exact List.forall_mem_nil _
      · exact ih h
    · rename_i hd
      rcases List.mem_cons.1 h with rfl | h
      · exact List.forall_mem_cons.2 ⟨by simpa using hd, ih List.mem_cons_self⟩
      · exact ih (List.mem_cons_of_mem v h)

theorem join_subset {separator t : Text} {parts : List Text} (hseparator : separator ⊆ t)
    (h : ∀ p ∈ parts, p ⊆ t) : join separator parts ⊆ t := by
  induction parts with
  | nil => exact List.nil_subset t
  | cons p ps ih =>
    have hp := h p List.mem_cons_self
    cases ps with
    | nil => simpa [join, List.intercalate] using hp
    | cons q qs =>
      rw [join_cons separator p (List.cons_ne_nil q qs)]
      refine List.append_subset.2 ⟨List.append_subset.2 ⟨hp, hseparator⟩, ih ?_⟩
      exact fun r hr => h r (List.mem_cons_of_mem p hr)

theorem eq_space_of_mem_collapse {s : Text} {c : Char} (hc : c ∈ collapse s)
    (hblank : isBlank c = true) : c = ' ' := by
  have hwords : ∀ w ∈ words s, w ⊆ ' ' :: (words s).flatten := by
    intro w hw
    exact List.subset_cons_of_subset ' ' fun d hd => List.mem_flatten.2 ⟨w, hw, hd⟩
  rcases List.mem_cons.1 (join_subset (by simp) hwords hc) with hspace | hword
  · exact hspace
  · obtain ⟨w, hw, hcw⟩ := List.mem_flatten.1 hword
    have hsolid := not_of_mem_splitAt (List.mem_filter.1 hw).1 c hcw
    rw [hblank] at hsolid
    cases hsolid

theorem dropBytes?_suffix {n : Nat} {s r : Text} (h : dropBytes? n s = some r) : r <:+ s := by
  fun_induction dropBytes? n s with
  | case1 =>
    cases h
    exact List.suffix_refl r
  | case2 => cases h
  | case3 n c s hle ih => exact (ih h).trans (List.suffix_cons c s)
  | case4 => cases h

theorem slice?_subset {start stop : Nat} {s t : Text} (h : slice? start stop s = some t) :
    t ⊆ s := by
  simp only [slice?, Option.bind_eq_bind, Option.bind_eq_some_iff, Option.pure_def,
    Option.some.injEq] at h
  obtain ⟨tail, htail, rest, -, rfl⟩ := h
  exact fun c hc => (dropBytes?_suffix htail).subset (List.take_subset _ _ hc)

end Text

namespace Sql
open Text Unicode

theorem stripQuotes_subset (s : Text) : stripQuotes s ⊆ s := by
  intro c hc
  have hstart := (List.dropWhile_sublist _).mem (List.mem_reverse.1 hc)
  exact (List.dropWhile_sublist _).mem (List.mem_reverse.1 hstart)

theorem normalizeName_subset (s : Text) : normalizeName s ⊆ '.' :: s := by
  refine join_subset (by simp) ?_
  intro p hp
  obtain ⟨w, hw, rfl⟩ := List.mem_map.1 hp
  exact List.subset_cons_of_subset '.' fun c hc =>
    subset_of_mem_splitAt hw (trim_subset w (stripQuotes_subset _ hc))

theorem subset_of_mem_nameList {s n : Text} (h : n ∈ nameList s) : n ⊆ '.' :: s := by
  obtain ⟨w, hw, rfl⟩ := List.mem_map.1 (List.mem_filter.1 h).1
  intro c hc
  rcases List.mem_cons.1 (normalizeName_subset w hc) with rfl | hc
  · exact List.mem_cons_self
  · exact List.mem_cons_of_mem '.' (subset_of_mem_splitAt hw hc)

theorem name?_subset {s n r : Text} (h : name? s = some (n, r)) : n ⊆ s := by
  rw [← name?_append h]
  exact List.subset_append_left n r

theorem qualifiedName?_subset {s r : Text} {n : QualifiedName}
    (h : qualifiedName? s = some (n, r)) : n.text ⊆ s := by
  rw [← qualifiedName?_append h]
  exact List.subset_append_left n.text r

theorem spanWith_subset {σ : Type} (step : σ → Char → σ) (stop : σ → Char → Bool) (st : σ)
    (s : Text) : (spanWith step stop st s).1 ⊆ s := by
  have happend := spanWith_append step stop st s
  exact fun c hc => happend ▸ List.mem_append_left _ hc

theorem value_subset (s : Text) : value s ⊆ s := spanWith_subset _ _ _ s

theorem group?_subset {s inside rest : Text} (h : group? s = some (inside, rest)) :
    inside ⊆ s := by
  have hspan := spanWith_subset Nesting.step Nesting.closes .opened s
  unfold group? at h
  split at h
  · rename_i heq
    cases h
    rwa [heq] at hspan
  · cases h

theorem subset_of_mem_topLevelParts {s p : Text} (h : p ∈ topLevelParts s) : p ⊆ s := by
  obtain ⟨w, hw, rfl⟩ := List.mem_map.1 (List.mem_filter.1 h).1
  exact fun c hc => subset_of_mem_splitWith hw (trim_subset w hc)

/-- What the reader leaves is an end of the text. -/
def Shrinks (read : Text → Option Text) : Prop := ∀ s r, read s = some r → r <:+ s

theorem shrinks_keyword? (w : Text) : Shrinks (keyword? w) := fun _ _ h => (keyword?_suffix h).1

theorem shrinks_mark? (m : Char) : Shrinks (mark? m) := fun _ _ h => mark?_suffix h

theorem shrinks_clause? (ws : List Text) : Shrinks (clause? ws) := fun _ _ h => clause?_suffix h

theorem Shrinks.orElse {read other : Text → Option Text} (h : Shrinks read) (ho : Shrinks other) :
    Shrinks fun s => read s <|> other s := by
  intro s r hr
  simp only [Option.orElse_eq_orElse, Option.orElse_eq_or, Option.or_eq_some_iff] at hr
  rcases hr with hr | ⟨-, hr⟩
  · exact h s r hr
  · exact ho s r hr

theorem Shrinks.andThen {read next : Text → Option Text} (h : Shrinks read) (hn : Shrinks next) :
    Shrinks fun s => (read s).bind next := by
  intro s r hr
  obtain ⟨t, ht, hr⟩ := Option.bind_eq_some_iff.1 hr
  exact (hn t r hr).trans (h s t ht)

theorem Shrinks.after {next : Text → Option Text} (hn : Shrinks next) {skip : Text → Text}
    (hskip : ∀ s, skip s <:+ s) : Shrinks fun s => next (skip s) :=
  fun s r hr => (hn (skip s) r hr).trans (hskip s)

theorem Shrinks.optional {read : Text → Option Text} (h : Shrinks read) (s : Text) :
    Sql.optional read s <:+ s := optional_suffix h s

theorem shrinks_blanks? : Shrinks blanks? := fun _ _ h => blanks?_suffix h

theorem shrinks_phrase? (ws : List Text) : Shrinks (phrase? ws) := by
  induction ws with
  | nil =>
    intro s r h
    cases h
    exact List.suffix_refl s
  | cons w ws ih =>
    cases ws with
    | nil => exact shrinks_keyword? w
    | cons v vs => exact (shrinks_keyword? w).andThen (shrinks_blanks?.andThen ih)

theorem shrinks_typeWord? : Shrinks typeWord? := by
  intro s r h
  cases s with
  | nil => cases h
  | cons c s =>
    simp only [typeWord?] at h
    split at h
    · cases h
      exact (List.dropWhile_suffix isTypePart).trans (List.suffix_cons c s)
    · cases h

theorem shrinks_precision? : Shrinks precision? := by
  intro s r h
  simp only [precision?, Option.bind_eq_bind, Option.bind_eq_some_iff] at h
  obtain ⟨t, ht, h⟩ := h
  split at h
  · exact ((mark?_suffix h).trans (skipBlanks_suffix _)).trans ((List.dropWhile_suffix _).trans
      ((skipBlanks_suffix t).trans ((mark?_suffix ht).trans (skipBlanks_suffix s))))
  · cases h

theorem shrinks_zonedTime? : Shrinks zonedTime? := by
  refine ((shrinks_keyword? _).orElse (shrinks_keyword? _)).andThen ?_
  refine (shrinks_blanks?.after shrinks_precision?.optional).andThen ?_
  refine ((shrinks_keyword? _).orElse (shrinks_keyword? _)).andThen ?_
  exact shrinks_blanks?.andThen (shrinks_phrase? _)

theorem shrinks_simpleType? : Shrinks simpleType? := by
  intro s r h
  simp only [simpleType?, Option.bind_eq_bind, Option.bind_eq_some_iff, Option.pure_def,
    Option.some.injEq] at h
  obtain ⟨t, ht, rfl⟩ := h
  exact (((shrinks_mark? '.').andThen shrinks_typeWord?).optional t).trans
    (shrinks_typeWord? s t ht)

theorem shrinks_typeName? : Shrinks typeName? :=
  (shrinks_phrase? _).orElse ((shrinks_phrase? _).orElse ((shrinks_phrase? _).orElse
    (shrinks_zonedTime?.orElse shrinks_simpleType?)))

theorem parenthesized?_subset {s inside r : Text} (h : parenthesized? s = some (inside, r)) :
    inside ⊆ s ∧ r <:+ s := by
  simp only [parenthesized?, Option.bind_eq_bind, Option.bind_eq_some_iff, Option.pure_def,
    Option.some.injEq, Prod.mk.injEq] at h
  obtain ⟨t, ht, u, hu, rfl, rfl⟩ := h
  have hsuffix := (mark?_suffix ht).trans (skipBlanks_suffix s)
  exact ⟨fun c hc => hsuffix.subset (List.takeWhile_subset _ hc),
    (mark?_suffix hu).trans ((List.dropWhile_suffix _).trans hsuffix)⟩

theorem shrinks_arrayMark? : Shrinks arrayMark? := by
  intro s r h
  simp only [arrayMark?, Option.bind_eq_bind, Option.bind_eq_some_iff] at h
  obtain ⟨t, ht, h⟩ := h
  exact ((mark?_suffix h).trans (skipBlanks_suffix _)).trans ((List.dropWhile_suffix _).trans
    ((skipBlanks_suffix t).trans ((mark?_suffix ht).trans (skipBlanks_suffix s))))

theorem skipArrayMarks_suffix (s : Text) : skipArrayMarks s <:+ s := by
  fun_induction skipArrayMarks s with
  | case1 s r h ih => exact ih.trans (shrinks_arrayMark? s r h)
  | case2 s h => exact List.suffix_refl s

theorem dataType?_subset {s t r : Text} (h : dataType? s = some (t, r)) : t ⊆ s ∧ r <:+ s := by
  simp only [dataType?, Option.bind_eq_bind, Option.bind_eq_some_iff, Option.pure_def,
    Option.some.injEq, Prod.mk.injEq] at h
  obtain ⟨named, hnamed, rfl, rfl⟩ := h
  have hparameters : Shrinks fun t => (parenthesized? t).map Prod.snd := by
    intro u v hv
    obtain ⟨w, hw, rfl⟩ := Option.map_eq_some_iff.1 hv
    exact (parenthesized?_subset hw).2
  exact ⟨List.take_subset _ s, (skipArrayMarks_suffix _).trans
    ((hparameters.optional named).trans (shrinks_typeName? s named hnamed))⟩

theorem exists_of_searchFrom? {α : Type} {read : Text → Option (α × Text)} {accept : Nat → Bool}
    {before : Option Char} {passed offset : Nat} {s : Text} {found : Found α}
    (h : searchFrom? read accept before passed offset s = some found) :
    ∃ t r, t <:+ s ∧ read t = some (found.value, r) := by
  have hlater : ∀ {c : Char} {u : Text}, (∃ t r, t <:+ u ∧ read t = some (found.value, r)) →
      ∃ t r, t <:+ c :: u ∧ read t = some (found.value, r) := by
    rintro c u ⟨t, r, ht, hr⟩
    exact ⟨t, r, ht.trans (List.suffix_cons c u), hr⟩
  fun_induction searchFrom? read accept before passed offset s with
  | case1 => cases h
  | case2 before passed offset c s ih => exact hlater (ih h)
  | case3 before offset c s value rest hread haccept =>
    cases h
    split at hread
    · exact ⟨c :: s, rest, List.suffix_refl _, hread⟩
    · cases hread
  | case4 before offset c s value rest hread haccept ih => exact hlater (ih h)
  | case5 before offset c s hread ih => exact hlater (ih h)

end Sql

end SchemaDiagram
