import SchemaDiagram.Proofs.Substitution.Exchange

/-!
The reference of a text on both sides of a mark. Clauses of references are read from the text itself,
quotes or not, and only where they begin is compared with the mask; so a clause that begins in front
of the mark may take the mark with it. Where none does (`Contained`), the reference is that of the
text in front of the mark, or else that of the text behind it (`inlineReference?_seam`).
-/

set_option autoImplicit false

namespace SchemaDiagram.Sql
open Unicode Text

/-- Every clause of a reference that begins at a word boundary of the text ends within the text,
where `rest` follows. -/
def Contained (rest : Text) : Option Char → Text → Prop
  | _, [] => True
  | before, c :: s =>
    (beginsWord before = true →
      ∀ x ∈ referenceClause? (c :: s ++ rest), rest.length ≤ x.2.length) ∧
    Contained rest (some c) s

instance decidableContained (rest : Text) :
    ∀ (before : Option Char) (s : Text), Decidable (Contained rest before s)
  | _, [] => isTrue trivial
  | _, c :: s =>
    have := decidableContained rest (some c) s
    inferInstanceAs (Decidable (_ ∧ _))

theorem referenceClause?_suffix {s r : Text} {x : Reference} (h : referenceClause? s = some (x, r)) :
    r <:+ s := by
  simp only [referenceClause?, Option.bind_eq_bind, Option.bind_eq_some_iff, Option.pure_def,
    Option.some.injEq, Prod.mk.injEq] at h
  obtain ⟨a, ha, ⟨table, b⟩, hb, c, hc, ⟨column, d⟩, hd, e, he, -, rfl⟩ := h
  have htable := (qualifiedName?_suffix hb).trans (clause?_suffix ha)
  have hopen := ((mark?_suffix hc).trans (skipBlanks_suffix b)).trans htable
  have hcolumn := ((name?_suffix hd).trans (skipBlanks_suffix c)).trans hopen
  exact ((mark?_suffix he).trans (skipBlanks_suffix d)).trans hcolumn

theorem Contained.local {rest s : Text} {before : Option Char} (h : Contained rest before s) :
    Local referenceClause? rest before s := by
  induction s generalizing before with
  | nil => trivial
  | cons c s ih =>
    refine ⟨fun hbefore => ?_, ih h.2⟩
    have hends := h.1 hbefore
    cases hlong : referenceClause? (c :: s ++ rest) with
    | some x =>
      obtain ⟨x, r⟩ := x
      obtain ⟨v, hv⟩ := referenceClause?_suffix hlong
      have hle := hends _ hlong
      have hrest : rest <:+ r := by
        refine List.suffix_of_suffix_length_le ?_ ⟨v, hv⟩ hle
        exact List.suffix_append (c :: s) rest
      obtain ⟨r, rfl⟩ := hrest
      have hshort := referenceClause?_exchange [] hlong
      rw [List.append_nil, List.append_nil] at hshort
      rw [hshort]
      rfl
    | none =>
      cases hshort : referenceClause? (c :: s) with
      | none => rfl
      | some x =>
        obtain ⟨x, r⟩ := x
        have hlong' := referenceClause?_exchange (s := c :: s) (r := r) (t := []) rest
          (by rwa [List.append_nil, List.append_nil])
        rw [hlong'] at hlong
        cases hlong

section
variable {α : Type} {read : Text → Option (α × Text)}

theorem searchFrom?_congr {accept accept' : Nat → Bool} {before : Option Char} {passed offset : Nat}
    {s : Text} (h : ∀ n ≤ offset + width s, accept n = accept' n) :
    searchFrom? read accept before passed offset s =
      searchFrom? read accept' before passed offset s := by
  induction s generalizing before passed offset with
  | nil => rfl
  | cons c s ih =>
    have hlater : ∀ n ≤ offset + c.utf8Size + width s, accept n = accept' n := by
      intro n hn
      refine h n ?_
      rw [width]
      omega
    have hhere : accept offset = accept' offset := h offset (Nat.le_add_right _ _)
    cases passed with
    | succ passed => exact ih hlater
    | zero => simp only [searchFrom?, hhere, ih hlater]

theorem search?_of_rejected {accept : Nat → Bool} (h : ∀ n, accept n = false) (s : Text) :
    search? read accept s = none := by
  have hall : ∀ before passed offset, searchFrom? read accept before passed offset s = none := by
    induction s with
    | nil => exact fun _ _ _ => rfl
    | cons c s ih =>
      intro before passed offset
      cases passed with
      | succ passed => exact ih _ _ _
      | zero =>
        rw [searchFrom?]
        split
        · rw [h offset]
          exact ih _ _ _
        · exact ih _ _ _
  exact hall none 0 0

end

theorem beginsWith_append_mark {m : Char} {w : Text} (h : ∀ c ∈ w, m.toLower ≠ c.toLower)
    (s t : Text) : beginsWith (s ++ m :: t) w = beginsWith s w := by
  induction s generalizing w with
  | nil =>
    cases w with
    | nil => rfl
    | cons c w => simp [beginsWith, h c List.mem_cons_self]
  | cons d s ih =>
    cases w with
    | nil => rfl
    | cons c w =>
      rw [List.cons_append, beginsWith, beginsWith, ih fun k hk => h k (List.mem_cons_of_mem c hk)]

/-- The mask of the text in front of the mark says which of its clauses count, and so does the mask
of the text behind it. -/
theorem inlineReference?_seam {m : Char} (hm : isWordChar m = false)
    (hlower : ∀ c ∈ ("REFERENCES" : Text), m.toLower ≠ c.toLower) {s t ms mt : Text}
    (hwidth : width ms = width s) (h : Contained (m :: t) none s) :
    inlineReference? (s ++ m :: t) (ms ++ m :: mt) =
      (inlineReference? s ms).or (inlineReference? t mt) := by
  have hfront : ∀ n ≤ 0 + width s,
      (dropBytes? n (ms ++ m :: mt)).any (beginsWith · "REFERENCES") =
        (dropBytes? n ms).any (beginsWith · "REFERENCES") := by
    intro n hn
    rw [Nat.zero_add, ← hwidth] at hn
    rw [dropBytes?_append hn]
    cases dropBytes? n ms with
    | none => rfl
    | some v => exact beginsWith_append_mark hlower v mt
  have hbehind : ∀ n, dropBytes? (width (s ++ [m]) + n) (ms ++ m :: mt) = dropBytes? n mt := by
    intro n
    have hsame : width (s ++ [m]) = width (ms ++ [m]) := by rw [width_append, width_append, hwidth]
    rw [hsame, List.append_cons ms m mt, dropBytes?_width_add]
  have hleads := leads_referenceClause?
  rw [inlineReference?, search?_seam isCapital_references hleads hm h.local]
  simp only [hbehind]
  rw [search?, searchFrom?_congr hfront, ← search?, inlineReference?, inlineReference?]
  cases search? referenceClause? (fun n => (dropBytes? n ms).any (beginsWith · "REFERENCES")) s with
  | some found => rfl
  | none =>
    simp only [Option.none_or, Option.map_none, Option.map_map]
    rfl

/-- No clause of a reference goes on behind either of the marks between three texts. -/
structure Apart (s : Text) (m : Char) (e : Text) (k : Char) (t : Text) : Prop where
  front : Contained (m :: (e ++ k :: t)) none s
  inside : Contained (k :: t) none e

instance (s : Text) (m : Char) (e : Text) (k : Char) (t : Text) : Decidable (Apart s m e k t) :=
  decidable_of_iff (Contained (m :: (e ++ k :: t)) none s ∧ Contained (k :: t) none e)
    ⟨fun h => ⟨h.1, h.2⟩, fun h => ⟨h.front, h.inside⟩⟩

theorem seam_marks : ∀ m ∈ ['\'', '(', ')'], isWordChar m = false ∧ isBlank m = false ∧
    ∀ c ∈ ("REFERENCES" : Text), m.toLower ≠ c.toLower := by decide +kernel

theorem Apart.inlineReference? {s e t : Text} {m k : Char} (h : Apart s m e k t)
    (hm : m ∈ ['\'', '(', ')']) (hk : k ∈ ['\'', '(', ')']) {ms me mt : Text}
    (hs : width ms = width s) (he : width me = width e) :
    inlineReference? (s ++ m :: (e ++ k :: t)) (ms ++ m :: (me ++ k :: mt)) =
      (inlineReference? s ms).or ((inlineReference? e me).or (inlineReference? t mt)) := by
  obtain ⟨hword, -, hlower⟩ := seam_marks m hm
  obtain ⟨hword', -, hlower'⟩ := seam_marks k hk
  rw [inlineReference?_seam hword hlower hs h.front,
    inlineReference?_seam hword' hlower' he h.inside]

theorem inlineReference?_spaces (s : Text) (n : Nat) :
    inlineReference? s (List.replicate n ' ') = none := by
  have hrejected : ∀ k,
      (dropBytes? k (List.replicate n ' ')).any (beginsWith · "REFERENCES") = false := by
    intro k
    cases hdrop : dropBytes? k (List.replicate n ' ') with
    | none => rfl
    | some v =>
      cases v with
      | nil => rfl
      | cons c v =>
        have hspace : c = ' ' :=
          List.eq_of_mem_replicate ((dropBytes?_suffix hdrop).subset List.mem_cons_self)
        subst hspace
        rfl
  rw [inlineReference?, search?_of_rejected hrejected]
  rfl

end SchemaDiagram.Sql
