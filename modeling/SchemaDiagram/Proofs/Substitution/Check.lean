import SchemaDiagram.Proofs.Substitution.Column

/-!
Another expression in a check. A balanced expression is masked by itself, and its parentheses belong
to no word, so what the column takes from it is what it would take from the expression alone: a flag
whose words stand in the expression outside quotes is set by them (`ofFragment?_check`).
-/

set_option autoImplicit false

namespace SchemaDiagram.Sql
open Unicode Text

/-- The text ends with the word of a check, outside quotes. -/
def OpensCheck (s : Text) : Prop :=
  ∃ lead word gap, s = lead ++ (word ++ gap) ∧ keyword? "CHECK" word = some [] ∧
    (∀ c ∈ gap, isBlank c = true) ∧ beginsWord (lastOf none lead) = true ∧
    (Quoting.start.after lead).isOpen = false

theorem exists_last_of_keyword? {w : Text} {k : Char} {s r : Text}
    (h : keyword? (w ++ [k]) s = some r) : ∃ v c, s = v ++ c :: r ∧ spells k c = true := by
  induction w generalizing s with
  | nil =>
    cases s with
    | nil => cases h
    | cons c s =>
      rw [List.nil_append, keyword?] at h
      split at h
      · rename_i hc
        cases h
        exact ⟨[], c, rfl, hc⟩
      · cases h
  | cons l w ih =>
    cases s with
    | nil => cases h
    | cons d s =>
      rw [List.cons_append, keyword?] at h
      split at h
      · obtain ⟨v, c, rfl, hc⟩ := ih h
        exact ⟨d :: v, c, rfl, hc⟩
      · cases h

theorem last_solid_eq {a a' r r' : Text} {c c' : Char} (h : a ++ c :: r = a' ++ c' :: r')
    (hr : ∀ d ∈ r, isBlank d = true) (hr' : ∀ d ∈ r', isBlank d = true) (hc : isBlank c = false)
    (hc' : isBlank c' = false) : c = c' := by
  have hlast : ∀ {a r : Text} {c : Char}, (∀ d ∈ r, isBlank d = true) → isBlank c = false →
      (a ++ c :: r).reverse.dropWhile isBlank = c :: a.reverse := by
    intro a r c hr hc
    have hreverse : (a ++ c :: r).reverse = r.reverse ++ c :: a.reverse := by simp
    rw [hreverse, List.dropWhile_append_of_pos fun d hd => hr d (List.mem_reverse.1 hd)]
    exact skipBlanks_solid hc _
  have hsame := hlast (a := a) hr hc
  rw [h, hlast hr' hc'] at hsame
  exact (List.cons.inj hsame).1.symm

theorem not_isBlank_of_spells {k c : Char} (hk : k.isUpper = true) (h : spells k c = true) :
    isBlank c = false := by
  cases hblank : isBlank c with
  | false => rfl
  | true =>
    have hword := isWordChar_of_spells hk h
    rw [isWordChar_of_isBlank hblank] at hword
    cases hword

theorem not_spells_both {k c : Char} (hk : k = 'E' ∨ k = 'P') (h : spells k c = true) :
    spells 'K' c = false := by
  have hcase : c = k ∨ c = k.toLower := by
    rcases hk with rfl | rfl <;> simpa [spells] using h
  rcases hk with rfl | rfl <;> rcases hcase with rfl | rfl <;> decide

namespace OpensCheck
variable {s : Text} (h : OpensCheck s)
include h

theorem exists_after : ∃ b, Quoting.start.after s = .outside b := by
  obtain ⟨lead, word, gap, rfl, hword, hgap, -, hlead⟩ := h
  obtain ⟨b, hb⟩ := Quoting.exists_outside hlead
  have hquotes : ∀ c ∈ word ++ gap, Quoting.isQuote c = false := by
    refine List.forall_mem_append.2 ⟨fun c hc => ?_, fun c hc => Quoting.isQuote_of_isBlank (hgap c hc)⟩
    exact isQuote_of_isWordChar (isWordChar_of_keyword? (by decide) hword c hc)
  rw [Quoting.after_append, hb]
  exact Quoting.exists_after_outside hquotes b

/-- No word of a time stands directly in front of the parenthesis, so it opens no precision. -/
theorem stopsAt_typeName? {u : Text} (hu : s <:+ u) : StopsAt '(' typeName? u := by
  refine Sql.stopsAt_typeName? endsType_paren (.inr fun r hr hblank => ?_)
  obtain ⟨lead, word, gap, rfl, hword, hgap, -, -⟩ := h
  obtain ⟨u, rfl⟩ := hu
  have hr' : ∀ d ∈ r, isBlank d = true := List.dropWhile_eq_nil_iff.1 hblank
  obtain ⟨v, c, rfl, hc⟩ := exists_last_of_keyword? (w := "CHEC") (k := 'K') hword
  obtain ⟨k, hk, v', c', hsplit, hc'⟩ : ∃ k, (k = 'E' ∨ k = 'P') ∧ ∃ v' c',
      u ++ (lead ++ (v ++ [c] ++ gap)) = v' ++ c' :: r ∧ spells k c' = true := by
    simp only [Option.orElse_eq_orElse, Option.orElse_eq_or, Option.or_eq_some_iff] at hr
    rcases hr with hr | ⟨-, hr⟩
    · exact ⟨'P', .inr rfl, exists_last_of_keyword? (w := "TIMESTAM") (k := 'P') hr⟩
    · exact ⟨'E', .inl rfl, exists_last_of_keyword? (w := "TIM") (k := 'E') hr⟩
  have hupper : k.isUpper = true := by rcases hk with rfl | rfl <;> decide
  have hsame : c = c' := by
    refine last_solid_eq (a := u ++ (lead ++ v)) (r := gap) (by simpa using hsplit) hgap hr' ?_ ?_
    · exact not_isBlank_of_spells (by decide) hc
    · exact not_isBlank_of_spells hupper hc'
  subst hsame
  rw [not_spells_both hk hc'] at hc
  cases hc

end OpensCheck

theorem mask_check {s e : Text} (hs : OpensCheck s) (he : Balanced e) (t : Text) :
    Quoting.mask (s ++ '(' :: (e ++ ')' :: t)) =
      Quoting.mask s ++ '(' :: (Quoting.mask e ++ ')' :: Quoting.mask t) := by
  obtain ⟨b, hb⟩ := hs.exists_after
  rw [Quoting.mask, Quoting.maskFrom_append, hb, he.maskFrom]
  rfl

def EndsDefault (s : Text) : Prop :=
  ∀ found ∈ defaultMark? (Quoting.mask s), ∀ v ∈ dropBytes? found.stop s, value v ≠ v

theorem value_append_of_ne {v : Text} (h : value v ≠ v) (t : Text) : value (v ++ t) = value v := by
  have hsplit := spanWith_append Nesting.step Nesting.stops .start v
  rw [value] at h
  rw [value, value]
  cases hspan : spanWith Nesting.step Nesting.stops .start v with
  | mk inside rest =>
    rw [hspan] at hsplit h
    cases rest with
    | nil => exact absurd (by simpa using hsplit) h
    | cons c r => rw [spanWith_of_stopped hspan]

section
variable {s e t : Text} {m k : Char}

theorem paren_classes : (isWordChar '(' = false ∧ isBlank '(' = false) ∧
    isWordChar ')' = false ∧ isBlank ')' = false := by decide

theorem defaultValue?_check_front {found : Found Unit}
    (hfound : defaultMark? (Quoting.mask s) = some found) (hends : EndsDefault s) (mt t : Text) :
    defaultValue? (s ++ '(' :: t) (Quoting.mask s ++ '(' :: mt) =
      (dropBytes? found.stop s).bind fun v => if (value v).isEmpty then none else some (value v) := by
  obtain ⟨⟨hm, hb⟩, -⟩ := paren_classes
  rw [defaultValue?_front hm hb (Quoting.width_mask s) _ _ hfound]
  cases hdrop : dropBytes? found.stop s with
  | none => rfl
  | some v =>
    have hne := hends found hfound v hdrop
    simp only [Option.bind_some, value_append_of_ne hne]

theorem defaultValue?_check_behind (hs : defaultMark? (Quoting.mask s) = none)
    (he : defaultMark? (Quoting.mask e) = none) (mt : Text) :
    defaultValue? (s ++ '(' :: (e ++ ')' :: t))
      (Quoting.mask s ++ '(' :: (Quoting.mask e ++ ')' :: mt)) = defaultValue? t mt := by
  obtain ⟨⟨hm, hb⟩, hm', hb'⟩ := paren_classes
  rw [defaultValue?_behind hm hb (Quoting.width_mask s) _ _ hs,
    defaultValue?_behind hm' hb' (Quoting.width_mask e) _ _ he]

end

theorem hasPhrase_check {w : Text} {ws : List Text} (hws : ∀ v ∈ w :: ws, IsCapital v)
    (ms me mt : Text) :
    hasPhrase (w :: ws) (ms ++ '(' :: (me ++ ')' :: mt)) =
      (hasPhrase (w :: ws) ms || (hasPhrase (w :: ws) me || hasPhrase (w :: ws) mt)) := by
  obtain ⟨⟨hm, hb⟩, hm', hb'⟩ := paren_classes
  rw [hasPhrase_seam hm hb _ _ hws, hasPhrase_seam hm' hb' _ _ hws]

/-- With another balanced expression in a check, a fragment declares a column of the same name and
type. Its flags differ only where the expressions themselves differ in the words of the flag outside
quotes; its default, only if the word is there in one of them or if a value in front is read on into
the check; and its reference, only if the expressions themselves have different ones or if a clause is
read on behind a parenthesis. -/
theorem ofFragment?_check {x e e' y name dataType front : Text} (he : Balanced e) (he' : Balanced e')
    (hopens : OpensCheck front)
    (hhead : columnHead? (trim (x ++ '(' :: (e ++ ')' :: y))) =
      some (name, dataType, front ++ '(' :: (e ++ ')' :: trimEnd y))) :
    ∃ d d', ColumnDeclaration.ofFragment? (x ++ '(' :: (e ++ ')' :: y)) = some d ∧
      ColumnDeclaration.ofFragment? (x ++ '(' :: (e' ++ ')' :: y)) = some d' ∧
      d.column.name = d'.column.name ∧ d.column.dataType = d'.column.dataType ∧
      (hasPhrase ["PRIMARY", "KEY"] (Quoting.mask e) = hasPhrase ["PRIMARY", "KEY"] (Quoting.mask e') →
        d.column.isPrimaryKey = d'.column.isPrimaryKey) ∧
      (hasPhrase ["NOT", "NULL"] (Quoting.mask e) = hasPhrase ["NOT", "NULL"] (Quoting.mask e') →
        d.column.isNotNull = d'.column.isNotNull) ∧
      (hasPhrase ["UNIQUE"] (Quoting.mask e) = hasPhrase ["UNIQUE"] (Quoting.mask e') →
        d.column.isUnique = d'.column.isUnique) ∧
      (EndsDefault front → (defaultMark? (Quoting.mask front) = none →
          defaultMark? (Quoting.mask e) = none ∧ defaultMark? (Quoting.mask e') = none) →
        d.column.default? = d'.column.default?) ∧
      (Apart front '(' e ')' (trimEnd y) → Apart front '(' e' ')' (trimEnd y) →
        inlineReference? e (Quoting.mask e) = inlineReference? e' (Quoting.mask e') →
        d.reference? = d'.reference?) := by
  obtain ⟨⟨-, hopen⟩, -, hclose⟩ := paren_classes
  have hmask := fun {e} (he : Balanced e) => mask_check hopens he (trimEnd y)
  have hhead' : columnHead? (trim (x ++ '(' :: (e' ++ ')' :: y))) =
      some (name, dataType, front ++ '(' :: (e' ++ ')' :: trimEnd y)) := by
    rw [trim_marks hopen hclose] at hhead ⊢
    exact columnHead?_exchange endsType_paren (by simp) (fun u hu => hopens.stopsAt_typeName? hu) hhead
  obtain ⟨d, hd, hname, htype, hread⟩ := exists_of_columnHead? hhead
  obtain ⟨d', hd', hname', htype', hread'⟩ := exists_of_columnHead? hhead'
  refine ⟨d, d', hd, hd', ?_, ?_, fun hsame => ?_, fun hsame => ?_, fun hsame => ?_, ?_, ?_⟩
  · rw [hname, hname']
  · rw [htype, htype']
  · rw [hread.isPrimaryKey, hread'.isPrimaryKey, hmask he, hmask he', hasPhrase_check (by decide),
      hasPhrase_check (by decide), hsame]
  · rw [hread.isNotNull, hread'.isNotNull, hmask he, hmask he', hasPhrase_check (by decide),
      hasPhrase_check (by decide), hsame]
  · rw [hread.isUnique, hread'.isUnique, hmask he, hmask he', hasPhrase_check (by decide),
      hasPhrase_check (by decide), hsame]
  · intro hends hnone
    rw [hread.default?, hread'.default?, hmask he, hmask he']
    -- The first `DEFAULT` stands in front of the check, or the check holds none.
    cases hfront : defaultMark? (Quoting.mask front) with
    | some found =>
      rw [defaultValue?_check_front hfront hends, defaultValue?_check_front hfront hends]
    | none =>
      obtain ⟨hinside, hinside'⟩ := hnone hfront
      rw [defaultValue?_check_behind hfront hinside, defaultValue?_check_behind hfront hinside']
  · intro hapart hapart' hsame
    have hmark : '(' ∈ ['\'', '(', ')'] ∧ ')' ∈ ['\'', '(', ')'] := by decide
    rw [hread.reference?, hread'.reference?, hmask he, hmask he',
      hapart.inlineReference? hmark.1 hmark.2 (Quoting.width_mask front) (Quoting.width_mask e),
      hapart'.inlineReference? hmark.1 hmark.2 (Quoting.width_mask front) (Quoting.width_mask e'),
      hsame]

/-- Words of clauses in a literal of a check. -/
theorem ofFragment?_check_words :
    let e : Text := "c > 0"
    let e' : Text := "c <> 'NOT NULL) REFERENCES u(x)' AND (b)"
    let d : ColumnDeclaration := ⟨{
      name := "c"
      dataType := "INT"
      default? := some "5"
      constraints := ["CHECK (c > 0)"] }, some ⟨"t", "c"⟩⟩
    let d' : ColumnDeclaration := ⟨{ d.column with
      constraints := ["CHECK (c <> 'NOT NULL) REFERENCES u(x)' AND (b))"] }, d.reference?⟩
    ColumnDeclaration.ofFragment? ("c INT DEFAULT 5 CHECK " ++ '(' :: (e ++ ')' :: " REFERENCES t(c)")) =
        some d ∧
      ColumnDeclaration.ofFragment?
        ("c INT DEFAULT 5 CHECK " ++ '(' :: (e' ++ ')' :: " REFERENCES t(c)")) = some d' ∧
      d.column.isNotNull = d'.column.isNotNull ∧ d.column.default? = d'.column.default? ∧
      d.reference? = d'.reference? := by
  intro e e' d d'
  have hopens : OpensCheck " DEFAULT 5 CHECK " :=
    ⟨" DEFAULT 5 ", "CHECK", " ", rfl, by decide, by decide, by decide, by decide +kernel⟩
  have he : Balanced e := by refine ⟨⟨?_, ?_⟩, ?_⟩ <;> decide +kernel
  have he' : Balanced e' := by refine ⟨⟨?_, ?_⟩, ?_⟩ <;> decide +kernel
  have hhead : columnHead? (trim (("c INT DEFAULT 5 CHECK " : Text) ++
      '(' :: (e ++ ')' :: (" REFERENCES t(c)" : Text)))) =
      some (("c" : Text), ("INT" : Text), (" DEFAULT 5 CHECK " : Text) ++
        '(' :: (e ++ ')' :: trimEnd " REFERENCES t(c)")) := by decide +kernel
  have hd : ColumnDeclaration.ofFragment?
      ("c INT DEFAULT 5 CHECK " ++ '(' :: (e ++ ')' :: " REFERENCES t(c)")) = some d := by
    decide +kernel
  have hd' : ColumnDeclaration.ofFragment?
      ("c INT DEFAULT 5 CHECK " ++ '(' :: (e' ++ ')' :: " REFERENCES t(c)")) = some d' := by
    decide +kernel
  obtain ⟨f, f', hf, hf', -, -, -, hnull, -, hdefault, hreference⟩ :=
    ofFragment?_check he he' hopens hhead
  obtain rfl := Option.some.inj (hd.symm.trans hf)
  obtain rfl := Option.some.inj (hd'.symm.trans hf')
  refine ⟨hd, hd', hnull (by decide +kernel), hdefault ?_ (by decide +kernel), hreference ?_ ?_ ?_⟩
  · unfold EndsDefault
    decide +kernel
  · decide +kernel
  · decide +kernel
  · decide +kernel

/-- Words of clauses outside the literals of a check are taken for clauses of the column. -/
theorem isNotNull_of_check :
    Balanced "c > 0" ∧ Balanced "a IS NOT NULL OR b IS NOT NULL" ∧
      (ColumnDeclaration.ofFragment? "c INT CHECK (c > 0)").map (·.column.isNotNull) = some false ∧
      (ColumnDeclaration.ofFragment? "c INT CHECK (a IS NOT NULL OR b IS NOT NULL)").map
        (·.column.isNotNull) = some true := by
  refine ⟨⟨⟨?_, ?_⟩, ?_⟩, ⟨⟨?_, ?_⟩, ?_⟩, ?_, ?_⟩ <;> decide +kernel

end SchemaDiagram.Sql
