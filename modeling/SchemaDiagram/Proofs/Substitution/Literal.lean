import SchemaDiagram.Proofs.Substitution.Column

/-!
Another text in a literal. Everything but the reference is looked for in the mask, where a literal is
two quotes with spaces between them, so it does not depend on what the literal holds. The reference
is read from the text itself, and there a clause may begin in a literal and end behind it
(`ofFragment?_literal`).
-/

set_option autoImplicit false

namespace SchemaDiagram.Sql
open Unicode Text

def OpensLiteral (s : Text) : Prop := (Quoting.start.after s).step '\'' = .plain '\''

instance (s : Text) : Decidable (OpensLiteral s) := inferInstanceAs (Decidable (_ = _))

def spaces (s : Text) : Text := List.replicate (width s) ' '

theorem spaces_cons (c : Char) (s : Text) :
    spaces (c :: s) = List.replicate c.utf8Size ' ' ++ spaces s := List.replicate_add ..

theorem width_spaces (s : Text) : width (spaces s) = width s := Quoting.width_spaces (width s)

theorem exists_outside_of_opens {q : Quoting} (h : q.step '\'' = .plain '\'') :
    ∃ b, q = .outside b := by
  cases q with
  | outside b => exact ⟨b, rfl⟩
  | plain k =>
    rw [Quoting.step] at h
    split at h
    · cases h
    · rename_i hne
      cases h
      exact absurd rfl hne
  | escape => simp [Quoting.step] at h
  | escaped => simp [Quoting.step] at h

theorem maskFrom_plain {a : Text} (ha : '\'' ∉ a) (t : Text) :
    (Quoting.plain '\'').maskFrom (a ++ '\'' :: t) = spaces a ++ '\'' :: Quoting.mask t := by
  induction a with
  | nil => rfl
  | cons c a ih =>
    obtain ⟨hc, ha⟩ := not_or.1 (mt List.mem_cons.2 ha)
    have hstep : (Quoting.plain '\'').step c = .plain '\'' := by simp [Quoting.step, Ne.symm hc]
    rw [List.cons_append, Quoting.maskFrom, hstep, ih ha, spaces_cons, List.append_assoc]
    rfl

theorem mask_literal {s a : Text} (hs : OpensLiteral s) (ha : '\'' ∉ a) (t : Text) :
    Quoting.mask (s ++ '\'' :: (a ++ '\'' :: t)) =
      Quoting.mask s ++ '\'' :: (spaces a ++ '\'' :: Quoting.mask t) := by
  obtain ⟨b, hb⟩ := exists_outside_of_opens hs
  have hshown : (Quoting.outside b).maskFrom ('\'' :: (a ++ '\'' :: t)) =
      '\'' :: ((Quoting.outside b).step '\'').maskFrom (a ++ '\'' :: t) := rfl
  rw [OpensLiteral, hb] at hs
  rw [Quoting.mask, Quoting.maskFrom_append, hb, hshown, hs, maskFrom_plain ha]
  rfl

theorem isWordChar_of_mem_spaces {s : Text} {c : Char} (hc : c ∈ spaces s) : isWordChar c = false := by
  rw [List.eq_of_mem_replicate hc]
  exact isWordChar_of_isBlank isBlank_space

theorem search?_spaces {α : Type} {read : Text → Option (α × Text)} {w : Text} (hw : IsCapital w)
    (hread : Leads w read) (accept : Nat → Bool) (s : Text) : search? read accept (spaces s) = none :=
  searchFrom?_of_silent
    ((lacks_of_gaps hw fun _ hc => isWordChar_of_mem_spaces hc).silent hw hread rfl) 0

section
variable (ms mt : Text)

theorem quote_classes : isWordChar '\'' = false ∧ isBlank '\'' = false := by decide

theorem hasPhrase_literal {w : Text} {ws : List Text} (hws : ∀ v ∈ w :: ws, IsCapital v) (a : Text) :
    hasPhrase (w :: ws) (ms ++ '\'' :: (spaces a ++ '\'' :: mt)) =
      (hasPhrase (w :: ws) ms || hasPhrase (w :: ws) mt) := by
  have hnone : hasPhrase (w :: ws) (spaces a) = false := by
    rw [hasPhrase, find?, search?_spaces (hws w List.mem_cons_self) ((leads_wholePhrase? w ws).map _)]
    rfl
  rw [hasPhrase_seam quote_classes.1 quote_classes.2 _ _ hws,
    hasPhrase_seam quote_classes.1 quote_classes.2 _ _ hws, hnone, Bool.false_or]

theorem isEmpty_value (v : Text) (m : Char) (t t' : Text) :
    (value (v ++ m :: t)).isEmpty = (value (v ++ m :: t')).isEmpty := by
  have hfirst : ∀ (c : Char) (s : Text),
      (value (c :: s)).isEmpty = Nesting.stops .start c := by
    intro c s
    rw [value, spanWith]
    cases hstop : Nesting.stops .start c <;> simp
  cases v with
  | nil => rw [List.nil_append, List.nil_append, hfirst, hfirst]
  | cons c v => rw [List.cons_append, List.cons_append, hfirst, hfirst]

variable {s : Text} (hwidth : width ms = width s) (t a b : Text)
include hwidth

theorem isSome_defaultValue?_literal :
    (defaultValue? (s ++ '\'' :: (a ++ '\'' :: t)) (ms ++ '\'' :: (spaces a ++ '\'' :: mt))).isSome =
      (defaultValue? (s ++ '\'' :: (b ++ '\'' :: t))
        (ms ++ '\'' :: (spaces b ++ '\'' :: mt))).isSome := by
  obtain ⟨hm, hb⟩ := quote_classes
  cases hmark : defaultMark? ms with
  | some found =>
    rw [defaultValue?_front hm hb hwidth _ _ hmark, defaultValue?_front hm hb hwidth _ _ hmark]
    cases dropBytes? found.stop s with
    | none => rfl
    | some v =>
      simp only [Option.bind_some, isEmpty_value v '\'' (a ++ '\'' :: t) (b ++ '\'' :: t)]
      split <;> rfl
  | none =>
    have hnone : ∀ a, defaultMark? (spaces a) = none := fun a =>
      search?_spaces isCapital_default leads_readDefault _ a
    have hall : ∀ a, defaultValue? (s ++ '\'' :: (a ++ '\'' :: t))
        (ms ++ '\'' :: (spaces a ++ '\'' :: mt)) = defaultValue? t mt := by
      intro a
      rw [defaultValue?_behind hm hb hwidth _ _ hmark,
        defaultValue?_behind hm hb (width_spaces a) _ _ (hnone a)]
    rw [hall a, hall b]

end

theorem spanWith_append_snd {σ : Type} (step : σ → Char → σ) (stop : σ → Char → Bool) (st : σ)
    (s t : Text) :
    (spanWith step stop st (s ++ t)).2 =
      if (spanWith step stop st s).2 = [] then (spanWith step stop (s.foldl step st) t).2
      else (spanWith step stop st s).2 ++ t := by
  induction s generalizing st with
  | nil => rfl
  | cons c s ih =>
    rw [List.cons_append, spanWith, spanWith]
    cases hstop : stop st c with
    | true => rfl
    | false => exact ih (step st c)

theorem isSome_group? (s : Text) :
    (group? s).isSome = !(spanWith Nesting.step Nesting.closes .opened s).2.isEmpty := by
  rw [group?]
  split
  · rename_i heq
    rw [heq]
    rfl
  · rename_i heq
    rw [heq]
    rfl

theorem spanWith_literal {n : Nesting} (hn : n.quoting.step '\'' = .plain '\'') {a : Text}
    (ha : '\'' ∉ a) (t : Text) :
    (spanWith Nesting.step Nesting.closes n ('\'' :: (a ++ '\'' :: t))).2 =
      (spanWith Nesting.step Nesting.closes ⟨.outside .gap, n.depth⟩ t).2 := by
  have hinside : ∀ {a : Text}, '\'' ∉ a →
      (spanWith Nesting.step Nesting.closes ⟨.plain '\'', n.depth⟩ (a ++ '\'' :: t)).2 =
        (spanWith Nesting.step Nesting.closes ⟨.outside .gap, n.depth⟩ t).2 := by
    intro a ha
    induction a with
    | nil => rfl
    | cons c a ih =>
      obtain ⟨hc, ha⟩ := not_or.1 (mt List.mem_cons.2 ha)
      have hstep : Nesting.step ⟨.plain '\'', n.depth⟩ c = ⟨.plain '\'', n.depth⟩ := by
        simp [Nesting.step, Quoting.step, Quoting.covers, Quoting.isOpen, Ne.symm hc]
      have hstop : Nesting.closes ⟨.plain '\'', n.depth⟩ c = false := rfl
      rw [List.cons_append, spanWith, hstop, hstep]
      exact ih ha
  have hcovers : n.quoting.covers '\'' = true := by simp [Quoting.covers, Quoting.isQuote]
  have hstop : Nesting.closes n '\'' = false := by simp [Nesting.closes, hcovers]
  have hstep : Nesting.step n '\'' = ⟨.plain '\'', n.depth⟩ := by
    simp [Nesting.step, hn, hcovers]
  rw [spanWith, hstop, hstep]
  exact hinside ha

theorem beginsWith_append {w s : Text} (h : w.length ≤ s.length) (t : Text) :
    beginsWith (s ++ t) w = beginsWith s w := by
  induction s generalizing w with
  | nil =>
    have hnil : w = [] := List.length_eq_zero_iff.1 (Nat.le_zero.1 h)
    subst hnil
    cases t <;> rfl
  | cons c s ih =>
    cases w with
    | nil => rfl
    | cons k w => rw [List.cons_append, beginsWith, beginsWith, ih (Nat.le_of_succ_le_succ h)]

section
variable {s t a b : Text} (ha : '\'' ∉ a) (hb : '\'' ∉ b)
include ha hb

theorem isSome_group?_literal (hs : OpensLiteral s) :
    (group? (s ++ '\'' :: (a ++ '\'' :: t))).isSome =
      (group? (s ++ '\'' :: (b ++ '\'' :: t))).isSome := by
  have hquoting : (s.foldl Nesting.step .opened).quoting.step '\'' = .plain '\'' := by
    rw [Nesting.quoting_foldl]
    exact hs
  rw [isSome_group?, isSome_group?, spanWith_append_snd, spanWith_append_snd,
    spanWith_literal hquoting ha, spanWith_literal hquoting hb]
  split
  · rfl
  · rename_i hne
    obtain ⟨c, r, hcons⟩ := List.exists_cons_of_ne_nil hne
    rw [hcons]
    rfl

/-- Whether there is a check, and whether its word is written in ASCII, does not depend on a
literal: its word is no part of it, and its group ends behind every literal that begins in it. -/
theorem any_checkClause?_literal (hs : OpensLiteral s) :
    (checkClause? (s ++ '\'' :: (a ++ '\'' :: t))
        (Quoting.mask s ++ '\'' :: (spaces a ++ '\'' :: Quoting.mask t))).any
          (beginsWith · "CHECK") =
      (checkClause? (s ++ '\'' :: (b ++ '\'' :: t))
        (Quoting.mask s ++ '\'' :: (spaces b ++ '\'' :: Quoting.mask t))).any
          (beginsWith · "CHECK") := by
  obtain ⟨hword, hblank⟩ := quote_classes
  have hparen : '\'' ≠ '(' := by decide
  cases hmark : checkMark? (Quoting.mask s) with
  | none =>
    have hnone : ∀ a, checkMark? (spaces a) = none := fun a =>
      search?_spaces isCapital_check leads_readCheck _ a
    have hall : ∀ a, checkClause? (s ++ '\'' :: (a ++ '\'' :: t))
        (Quoting.mask s ++ '\'' :: (spaces a ++ '\'' :: Quoting.mask t)) =
          checkClause? t (Quoting.mask t) := by
      intro a
      rw [checkClause?_behind hword hblank (Quoting.width_mask s) _ _ hparen hmark,
        checkClause?_behind hword hblank (width_spaces a) _ _ hparen (hnone a)]
    rw [hall a, hall b]
  | some found =>
    -- The check begins in front of the literal, so its word is known, and only its end is asked for.
    obtain ⟨u, w, gap, v, rfl, rfl, hw, hstart⟩ := exists_of_checkMark? hmark
    generalize gap ++ ['('] = x at hmark hstart hs
    have hlength : ("CHECK" : Text).length ≤ w.length := by
      have hcount := (keyword?_suffix hw).2
      rw [List.length_nil, Nat.zero_add] at hcount
      exact hcount.le
    have hv : OpensLiteral v := by
      rw [OpensLiteral, ← List.append_assoc, Quoting.after_append, hstart] at hs
      exact hs
    have hall : ∀ a, (checkClause? (u ++ (w ++ x ++ v) ++ '\'' :: (a ++ '\'' :: t))
        (Quoting.mask (u ++ (w ++ x ++ v)) ++ '\'' :: (spaces a ++ '\'' :: Quoting.mask t))).any
          (beginsWith · "CHECK") =
        ((group? (v ++ '\'' :: (a ++ '\'' :: t))).isSome && beginsWith w "CHECK") := by
      intro a
      rw [checkClause?_front hword hblank hparen hmark]
      cases group? (v ++ '\'' :: (a ++ '\'' :: t)) with
      | none => rfl
      | some p =>
        have hbegins := beginsWith_append hlength (x ++ p.1 ++ [')'])
        simpa using hbegins
    rw [hall a, hall b, isSome_group?_literal ha hb hv]

end

/-- The columns agree in everything but the texts of their default and of their check. -/
structure SameShape (c c' : Column) : Prop where
  name : c.name = c'.name
  dataType : c.dataType = c'.dataType
  isPrimaryKey : c.isPrimaryKey = c'.isPrimaryKey
  isNotNull : c.isNotNull = c'.isNotNull
  isUnique : c.isUnique = c'.isUnique
  hasDefault : c.default?.isSome = c'.default?.isSome
  hasCheck : c.hasCheck = c'.hasCheck

/-- With another text in a plain literal behind its type, a fragment declares the same column up to
the texts of default and check, unless the literal closes a group of parameters that was not closed
so far. Its reference is the same unless a clause that begins in the literal, or in a quoted text in
front of it, is read on behind the quote. -/
theorem ofFragment?_literal {x a b y name dataType tail : Text} (ha : '\'' ∉ a) (hb : '\'' ∉ b)
    (hhead : columnHead? (trim (x ++ '\'' :: (a ++ '\'' :: y))) =
      some (name, dataType, tail ++ '\'' :: (a ++ '\'' :: trimEnd y)))
    (hopens : OpensLiteral tail) (hparen : ')' ∈ b → ')' ∈ a ++ y) :
    ∃ d d', ColumnDeclaration.ofFragment? (x ++ '\'' :: (a ++ '\'' :: y)) = some d ∧
      ColumnDeclaration.ofFragment? (x ++ '\'' :: (b ++ '\'' :: y)) = some d' ∧
      SameShape d.column d'.column ∧
      (Apart tail '\'' a '\'' (trimEnd y) → Apart tail '\'' b '\'' (trimEnd y) →
        d.reference? = d'.reference?) := by
  have hquote : isBlank '\'' = false := quote_classes.2
  have ht : ')' ∈ b ++ '\'' :: trimEnd y → ')' ∈ a ++ '\'' :: trimEnd y := by
    have hy := mem_trimEnd_iff (s := y) (c := ')') (by decide)
    simp only [List.mem_append, List.mem_cons, hy] at hparen ⊢
    rintro (hmem | hmem)
    · exact (hparen hmem).imp_right .inr
    · exact .inr hmem
  have hmask := fun {a} (ha : '\'' ∉ a) => mask_literal hopens ha (trimEnd y)
  have hwidth := Quoting.width_mask tail
  have hstops : ∀ u, tail <:+ u → StopsAt '\'' typeName? u :=
    fun u _ => stopsAt_typeName? endsType_quote (.inl (by decide))
  have hhead' : columnHead? (trim (x ++ '\'' :: (b ++ '\'' :: y))) =
      some (name, dataType, tail ++ '\'' :: (b ++ '\'' :: trimEnd y)) := by
    rw [trim_marks hquote hquote] at hhead ⊢
    exact columnHead?_exchange endsType_quote ht hstops hhead
  obtain ⟨d, hd, hname, htype, hread⟩ := exists_of_columnHead? hhead
  obtain ⟨d', hd', hname', htype', hread'⟩ := exists_of_columnHead? hhead'
  refine ⟨d, d', hd, hd', ⟨?_, ?_, ?_, ?_, ?_, ?_, ?_⟩, ?_⟩
  · rw [hname, hname']
  · rw [htype, htype']
  · rw [hread.isPrimaryKey, hread'.isPrimaryKey, hmask ha, hmask hb,
      hasPhrase_literal _ _ (by decide), hasPhrase_literal _ _ (by decide)]
  · rw [hread.isNotNull, hread'.isNotNull, hmask ha, hmask hb,
      hasPhrase_literal _ _ (by decide), hasPhrase_literal _ _ (by decide)]
  · rw [hread.isUnique, hread'.isUnique, hmask ha, hmask hb,
      hasPhrase_literal _ _ (by decide), hasPhrase_literal _ _ (by decide)]
  · rw [hread.default?, hread'.default?, hmask ha, hmask hb]
    exact isSome_defaultValue?_literal _ _ hwidth _ a b
  · rw [hread.hasCheck, hread'.hasCheck, hmask ha, hmask hb]
    exact any_checkClause?_literal ha hb hopens
  · intro hapart hapart'
    have hmark : '\'' ∈ ['\'', '(', ')'] := List.mem_cons_self
    rw [hread.reference?, hread'.reference?, hmask ha, hmask hb,
      hapart.inlineReference? hmark hmark hwidth (width_spaces a),
      hapart'.inlineReference? hmark hmark hwidth (width_spaces b), spaces, spaces,
      inlineReference?_spaces, inlineReference?_spaces]

/-- Words of clauses in a literal, a whole reference among them. -/
theorem ofFragment?_literal_words :
    let words : Text := " UNIQUE (REFERENCES u(x) CHECK ("
    let d : ColumnDeclaration := ⟨{
      name := "c"
      dataType := "INT"
      isNotNull := true
      default? := some ['\'', '\''] }, some ⟨"t", "c"⟩⟩
    let d' : ColumnDeclaration := ⟨{ d.column with
      default? := some ('\'' :: (words ++ ['\''])) }, d.reference?⟩
    ColumnDeclaration.ofFragment? "c INT DEFAULT '' NOT NULL REFERENCES t(c)" = some d ∧
      ColumnDeclaration.ofFragment?
        "c INT DEFAULT ' UNIQUE (REFERENCES u(x) CHECK (' NOT NULL REFERENCES t(c)" = some d' ∧
      SameShape d.column d'.column ∧ d.reference? = d'.reference? := by
  intro words d d'
  have hapart : Apart " DEFAULT " '\'' [] '\'' " NOT NULL REFERENCES t(c)" := by decide +kernel
  have hapart' : Apart " DEFAULT " '\'' words '\'' " NOT NULL REFERENCES t(c)" := by decide +kernel
  have hhead : columnHead? (trim (("c INT DEFAULT " : Text) ++
      '\'' :: (([] : Text) ++ '\'' :: (" NOT NULL REFERENCES t(c)" : Text)))) =
      some (("c" : Text), ("INT" : Text), (" DEFAULT " : Text) ++
        '\'' :: (([] : Text) ++ '\'' :: trimEnd " NOT NULL REFERENCES t(c)")) := by decide +kernel
  have htext : ("c INT DEFAULT '' NOT NULL REFERENCES t(c)" : Text) =
      "c INT DEFAULT " ++ '\'' :: ([] ++ '\'' :: " NOT NULL REFERENCES t(c)") := by
    repeat rw [String.toList_ofList]
    rfl
  have htext' : ("c INT DEFAULT ' UNIQUE (REFERENCES u(x) CHECK (' NOT NULL REFERENCES t(c)" : Text) =
      "c INT DEFAULT " ++ '\'' :: (words ++ '\'' :: " NOT NULL REFERENCES t(c)") := by
    repeat rw [String.toList_ofList]
    rfl
  have hd : ColumnDeclaration.ofFragment? "c INT DEFAULT '' NOT NULL REFERENCES t(c)" = some d := by
    decide +kernel
  have hd' : ColumnDeclaration.ofFragment?
      "c INT DEFAULT ' UNIQUE (REFERENCES u(x) CHECK (' NOT NULL REFERENCES t(c)" = some d' := by
    decide +kernel
  obtain ⟨e, e', he, he', hshape, hreference⟩ := ofFragment?_literal
    (b := words) (by decide) (by decide) hhead (by decide +kernel) (by decide)
  obtain rfl := Option.some.inj (hd.symm.trans (htext ▸ he))
  obtain rfl := Option.some.inj (hd'.symm.trans (htext' ▸ he'))
  exact ⟨hd, hd', hshape, hreference hapart hapart'⟩

/-- A clause that begins in a literal is read up to the quote of another literal, and is then passed
over together with the clause between the two. -/
theorem reference?_of_open_literal :
    (ColumnDeclaration.ofFragment?
        "c INT DEFAULT 'x' REFERENCES t(c) CHECK (c <> '\"(a)')").map (·.reference?) =
      some (some ⟨"t", "c"⟩) ∧
    (ColumnDeclaration.ofFragment?
        "c INT DEFAULT 'REFERENCES \"' REFERENCES t(c) CHECK (c <> '\"(a)')").map (·.reference?) =
      some none := by
  decide +kernel

end SchemaDiagram.Sql
