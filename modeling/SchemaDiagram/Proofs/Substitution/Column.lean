import SchemaDiagram.Proofs.Substitution.Head

/-!
What a column takes from the text behind its name and type, and where. A character that the mask
shows stands at the same place of the text itself (`exists_of_maskFrom`), and so does what is found in
the mask (`exists_of_search?_mask`): the word of a check is a word of the text, and its group begins
outside quotes (`exists_of_checkMark?`).
-/

set_option autoImplicit false

namespace SchemaDiagram.Sql
open Unicode Text

namespace Quoting

theorem exists_of_maskFrom {q : Quoting} {s u v : Text} {c : Char} (h : q.maskFrom s = u ++ c :: v)
    (hc : c ≠ ' ') :
    ∃ x y, s = x ++ c :: y ∧ q.maskFrom x = u ∧
      ((q.after x).isOpen && ((q.after x).step c).isOpen) = false ∧
      ((q.after x).step c).maskFrom y = v := by
  induction s generalizing q u with
  | nil => exact absurd h (by simp [maskFrom])
  | cons d s ih =>
    rw [maskFrom] at h
    split at h
    · rename_i hopen
      -- A hidden character gives spaces, so what is looked for comes behind them.
      have hcut : ∃ u', u = List.replicate d.utf8Size ' ' ++ u' ∧
          (q.step d).maskFrom s = u' ++ c :: v := by
        rcases List.append_eq_append_iff.1 h with ⟨u', rfl, hu'⟩ | ⟨w, hw, hu'⟩
        · exact ⟨u', rfl, hu'⟩
        · cases w with
          | nil =>
            rw [List.append_nil] at hw
            exact ⟨[], by simp [hw], hu'.symm⟩
          | cons e w =>
            cases hu'
            have hmem : c ∈ List.replicate d.utf8Size ' ' := by simp [hw]
            exact absurd (List.eq_of_mem_replicate hmem) hc
      obtain ⟨u', rfl, hmask⟩ := hcut
      obtain ⟨x, y, rfl, hx, hstep, hy⟩ := ih hmask
      refine ⟨d :: x, y, rfl, ?_, hstep, hy⟩
      rw [maskFrom, if_pos hopen, hx]
    · rename_i hopen
      cases u with
      | nil =>
        cases h
        exact ⟨[], s, rfl, rfl, by simpa [after] using hopen, rfl⟩
      | cons e u =>
        simp only [List.cons_append, List.cons.injEq] at h
        obtain ⟨rfl, hmask⟩ := h
        obtain ⟨x, y, rfl, hx, hstep, hy⟩ := ih hmask
        refine ⟨d :: x, y, rfl, ?_, hstep, hy⟩
        rw [maskFrom, if_neg hopen, hx]
        rfl

theorem exists_of_maskFrom_outside {b : Before} {s u v : Text}
    (h : (outside b).maskFrom s = u ++ v) (hu : ∀ c ∈ u, isQuote c = false) : ∃ y, s = u ++ y := by
  induction u generalizing b s with
  | nil => exact ⟨s, rfl⟩
  | cons c u ih =>
    cases s with
    | nil => cases h
    | cons d s =>
      have hshown : d :: ((outside b).step d).maskFrom s = c :: (u ++ v) := h
      obtain ⟨rfl, hmask⟩ := List.cons.inj hshown
      rw [step_outside (hu d List.mem_cons_self)] at hmask
      obtain ⟨y, rfl⟩ := ih hmask fun e he => hu e (List.mem_cons_of_mem d he)
      exact ⟨y, rfl⟩

theorem exists_after_outside {s : Text} (hs : ∀ c ∈ s, isQuote c = false) (b : Before) :
    ∃ b', (outside b).after s = outside b' := by
  induction s generalizing b with
  | nil => exact ⟨b, rfl⟩
  | cons c s ih =>
    obtain ⟨hc, hs⟩ := List.forall_mem_cons.1 hs
    obtain ⟨b', hb'⟩ := ih hs (Before.next b c)
    refine ⟨b', ?_⟩
    rw [after, List.foldl_cons, step_outside hc]
    exact hb'

theorem Regular.exists_outside {q : Quoting} (hq : q.Regular) {c : Char} (hc : isQuote c = false)
    (h : (q.isOpen && (q.step c).isOpen) = false) : ∃ b, q = outside b := by
  have hne : c ≠ '\'' ∧ c ≠ '"' := by simpa [isQuote] using hc
  cases q with
  | outside b => exact ⟨b, rfl⟩
  | plain k =>
    have hk : c ≠ k := by
      rintro rfl
      rw [hq c rfl] at hc
      cases hc
    simp [isOpen, Quoting.step, hk] at h
  | escape => by_cases hb : c = '\\' <;> simp [isOpen, Quoting.step, hne.1, hb] at h
  | escaped => simp [isOpen, Quoting.step] at h

end Quoting

theorem exists_of_keyword? {w s r : Text} (h : keyword? w s = some r) :
    ∃ x, s = x ++ r ∧ keyword? w x = some [] := by
  obtain ⟨x, rfl⟩ := (keyword?_suffix h).1
  have hx := keyword?_exchange (s := x) (r := []) (t := r) [] h
  rw [List.append_nil] at hx
  exact ⟨x, rfl, hx⟩

theorem isWordChar_of_keyword? {w s : Text} (hw : ∀ k ∈ w, k.isUpper = true)
    (h : keyword? w s = some []) : ∀ c ∈ s, isWordChar c = true := by
  induction w generalizing s with
  | nil =>
    cases h
    exact nofun
  | cons k w ih =>
    obtain ⟨hk, hw⟩ := List.forall_mem_cons.1 hw
    cases s with
    | nil => cases h
    | cons c s =>
      rw [keyword?] at h
      split at h
      · rename_i hc
        exact List.forall_mem_cons.2 ⟨isWordChar_of_spells hk hc, ih hw h⟩
      · cases h

theorem isQuote_of_isWordChar {c : Char} (hc : isWordChar c = true) : Quoting.isQuote c = false := by
  have hmarks : isWordChar '\'' = false ∧ isWordChar '"' = false := by decide
  have hne : c ≠ '\'' ∧ c ≠ '"' := by
    constructor <;> rintro rfl <;> simp [hmarks] at hc
  simp [Quoting.isQuote, hne.1, hne.2]

section
variable {α : Type} {read : Text → Option (α × Text)} {accept : Nat → Bool}

theorem exists_place_of_searchFrom? {before : Option Char} {passed offset : Nat} {s : Text}
    {found : Found α} (h : searchFrom? read accept before passed offset s = some found) :
    ∃ u v r, s = u ++ v ∧ beginsWord (lastOf before u) = true ∧ read v = some (found.value, r) ∧
      found.start = offset + width u ∧ found.stop = offset + width u + (width v - width r) := by
  have hlater : ∀ {before : Option Char} {c : Char} {offset : Nat} {s : Text},
      (∃ u v r, s = u ++ v ∧ beginsWord (lastOf (some c) u) = true ∧
        read v = some (found.value, r) ∧ found.start = offset + c.utf8Size + width u ∧
        found.stop = offset + c.utf8Size + width u + (width v - width r)) →
      ∃ u v r, c :: s = u ++ v ∧ beginsWord (lastOf before u) = true ∧
        read v = some (found.value, r) ∧ found.start = offset + width u ∧
        found.stop = offset + width u + (width v - width r) := by
    rintro before c offset s ⟨u, v, r, rfl, hbegins, hr, hstart, hstop⟩
    refine ⟨c :: u, v, r, rfl, hbegins, hr, ?_, ?_⟩
    · rw [hstart, width, Nat.add_assoc]
    · rw [hstop, width, Nat.add_assoc offset]
  fun_induction searchFrom? read accept before passed offset s with
  | case1 => cases h
  | case2 before passed offset c s ih => exact hlater (ih h)
  | case3 before offset c s value rest hread haccept =>
    cases h
    split at hread
    · rename_i hbegins
      exact ⟨[], c :: s, rest, rfl, hbegins, hread, rfl, rfl⟩
    · cases hread
  | case4 before offset c s value rest hread haccept ih => exact hlater (ih h)
  | case5 before offset c s hread ih => exact hlater (ih h)

end

theorem exists_of_readCheck {s r : Text} (h : readCheck s = some ((), r)) :
    ∃ w gap, s = w ++ (gap ++ ['(']) ++ r ∧ keyword? "CHECK" w = some [] ∧
      ∀ d ∈ gap, isBlank d = true := by
  obtain ⟨r, hread, heq⟩ := Option.map_eq_some_iff.1 h
  cases heq
  obtain ⟨t, hword, hopen⟩ := Option.bind_eq_some_iff.1 hread
  obtain ⟨w, rfl, hw⟩ := exists_of_keyword? hword
  have hblanks := List.takeWhile_append_dropWhile (p := isBlank) (l := t)
  rw [show t.dropWhile isBlank = '(' :: r from eq_cons_of_mark? hopen] at hblanks
  have hgap : ∀ d ∈ t.takeWhile isBlank, isBlank d = true := fun d hd => List.mem_takeWhile_imp hd
  refine ⟨w, t.takeWhile isBlank, ?_, hw, hgap⟩
  conv => lhs; rw [← hblanks]
  simp

theorem isQuote_of_wordGap {w gap : Text} (hletters : ∀ d ∈ w, isWordChar d = true)
    (hgap : ∀ d ∈ gap, isBlank d = true) : ∀ d ∈ w ++ gap, Quoting.isQuote d = false := by
  intro d hd
  rcases List.mem_append.1 hd with hd | hd
  · exact isQuote_of_isWordChar (hletters d hd)
  · exact Quoting.isQuote_of_isBlank (hgap d hd)

/-- A text that a mask shows only outside quotes. -/
structure Visible (x : Text) : Prop where
  head : ∃ c t, x = c :: t ∧ c ≠ ' '
  plain : ∀ d ∈ x, Quoting.isQuote d = false

theorem visible_wordGap {k : Char} {w u gap : Text} (hw : ∀ c ∈ k :: w, c.isUpper = true)
    (hu : keyword? (k :: w) u = some []) (hgap : ∀ d ∈ gap, isBlank d = true) :
    Visible (u ++ gap) := by
  have hletters := isWordChar_of_keyword? hw hu
  refine ⟨?_, isQuote_of_wordGap hletters hgap⟩
  cases u with
  | nil => cases hu
  | cons c u =>
    refine ⟨c, u ++ gap, rfl, ?_⟩
    rintro rfl
    have hspace := hletters ' ' List.mem_cons_self
    rw [isWordChar_of_isBlank isBlank_space] at hspace
    cases hspace

theorem visible_check {w gap : Text} (hw : keyword? "CHECK" w = some [])
    (hgap : ∀ d ∈ gap, isBlank d = true) : Visible (w ++ (gap ++ ['('])) := by
  obtain ⟨⟨c, x, hx, hc⟩, hplain⟩ := visible_wordGap (by decide) hw hgap
  rw [← List.append_assoc, hx]
  rw [hx] at hplain
  exact ⟨⟨c, x ++ ['('], rfl, hc⟩, List.forall_mem_append.2 ⟨hplain, by decide⟩⟩

theorem exists_of_mask_visible {s mu x r : Text} (hx : Visible x)
    (hmask : Quoting.mask s = mu ++ (x ++ r)) :
    ∃ u v b, s = u ++ (x ++ v) ∧ Quoting.mask u = mu ∧ Quoting.start.after u = .outside b := by
  obtain ⟨⟨c, x, rfl, hspace⟩, hplain⟩ := hx
  -- The first character ties the place of the mask to a place of the text.
  obtain ⟨u, y, rfl, hu, hshown, hy⟩ := Quoting.exists_of_maskFrom hmask hspace
  obtain ⟨b, hb⟩ := (Quoting.regular_after Quoting.regular_start u).exists_outside
    (hplain c List.mem_cons_self) hshown
  have hrest : (Quoting.outside b).maskFrom (c :: y) = c :: x ++ r := by
    rw [hb] at hy
    exact congrArg (c :: ·) hy
  obtain ⟨v, hsplit⟩ := Quoting.exists_of_maskFrom_outside hrest hplain
  exact ⟨u, v, b, by rw [hsplit], hu, hb⟩

theorem exists_of_readCheck_mask {s mu mv r : Text} (hmask : Quoting.mask s = mu ++ mv)
    (hread : readCheck mv = some ((), r)) :
    ∃ u w gap v b, s = u ++ (w ++ (gap ++ '(' :: v)) ∧ mv = w ++ (gap ++ '(' :: r) ∧
      Quoting.mask u = mu ∧ Quoting.start.after u = .outside b ∧ keyword? "CHECK" w = some [] ∧
      (∀ d ∈ w, isWordChar d = true) ∧ ∀ d ∈ gap, isBlank d = true := by
  obtain ⟨w, gap, rfl, hw, hgap⟩ := exists_of_readCheck hread
  obtain ⟨u, v, b, rfl, hu, hb⟩ := exists_of_mask_visible (visible_check hw hgap) <| by
    rw [hmask]
  exact ⟨u, w, gap, v, b, by simp, by simp, hu, hb, hw, isWordChar_of_keyword? (by decide) hw, hgap⟩

theorem exists_of_search?_mask {read : Text → Option (Unit × Text)} {accept : Nat → Bool}
    {P : Text → Prop} {s : Text} {found : Found Unit}
    (hread : ∀ t r, read t = some ((), r) → ∃ x, t = x ++ r ∧ Visible x ∧ P x)
    (h : search? read accept (Quoting.mask s) = some found) :
    ∃ u x v b, s = u ++ (x ++ v) ∧ found = ⟨width u, width (u ++ x), ()⟩ ∧ P x ∧
      Quoting.start.after u = .outside b := by
  obtain ⟨mu, mv, r, hmask, -, hfound, hstart, hstop⟩ := exists_place_of_searchFrom? h
  obtain ⟨x, rfl, hx, hp⟩ := hread _ _ hfound
  obtain ⟨u, v, b, rfl, hu, hb⟩ := exists_of_mask_visible hx hmask
  have hwidth : width mu = width u := hu ▸ Quoting.width_maskFrom _ u
  refine ⟨u, x, v, b, rfl, ?_, hp, hb⟩
  obtain ⟨start, stop, value⟩ := found
  simp only at hstart hstop
  subst hstart hstop
  rw [width_append x, Nat.add_sub_cancel, Nat.zero_add, hwidth, ← width_append]

/-- Where the mask shows a check, the text has its word and its parenthesis, and the group begins
outside quotes. -/
theorem exists_of_checkMark? {s : Text} {found : Found Unit}
    (h : checkMark? (Quoting.mask s) = some found) :
    ∃ u w gap v, s = u ++ (w ++ (gap ++ ['(']) ++ v) ∧
      found = ⟨width u, width (u ++ (w ++ (gap ++ ['(']))), ()⟩ ∧ keyword? "CHECK" w = some [] ∧
      Quoting.start.after (u ++ (w ++ (gap ++ ['(']))) = .start := by
  have hread : ∀ t r, readCheck t = some ((), r) → ∃ x, t = x ++ r ∧ Visible x ∧
      ∃ w gap, x = w ++ (gap ++ ['(']) ∧ keyword? "CHECK" w = some [] ∧
        ∀ d ∈ gap, isBlank d = true := by
    intro t r ht
    obtain ⟨w, gap, rfl, hw, hgap⟩ := exists_of_readCheck ht
    exact ⟨_, rfl, visible_check hw hgap, w, gap, rfl, hw, hgap⟩
  obtain ⟨u, _, v, b, rfl, rfl, ⟨w, gap, rfl, hw, hgap⟩, hb⟩ := exists_of_search?_mask hread h
  refine ⟨u, w, gap, v, rfl, rfl, hw, ?_⟩
  have hletters := isWordChar_of_keyword? (by decide) hw
  obtain ⟨b', hb'⟩ := Quoting.exists_after_outside (isQuote_of_wordGap hletters hgap) b
  rw [← List.append_assoc w, Quoting.after_append, Quoting.after_append, hb, hb']
  exact Quoting.step_open b'

theorem ne_unique_of_checkClause? {s t : Text} (h : checkClause? s (Quoting.mask s) = some t) :
    t ≠ "UNIQUE" := by
  rintro rfl
  have hmark : checkMark? (Quoting.mask s) ≠ none := by
    intro hnone
    simp [checkClause?, hnone] at h
  obtain ⟨found, hfound⟩ := Option.ne_none_iff_exists'.1 hmark
  obtain ⟨u, w, gap, v, rfl, rfl, hw, -⟩ := exists_of_checkMark? hfound
  rw [checkClause?_of_found hfound] at h
  obtain ⟨p, -, htext⟩ := Option.map_eq_some_iff.1 h
  cases w with
  | nil => cases hw
  | cons c w =>
    have hc : c = 'U' := (List.cons.inj htext).1
    subst hc
    cases hw

/-- The column was read in front of the text `tail`. -/
structure ReadFrom (tail : Text) (d : ColumnDeclaration) : Prop where
  isPrimaryKey : d.column.isPrimaryKey = hasPhrase ["PRIMARY", "KEY"] (Quoting.mask tail)
  isNotNull : d.column.isNotNull = hasPhrase ["NOT", "NULL"] (Quoting.mask tail)
  isUnique : d.column.isUnique = hasPhrase ["UNIQUE"] (Quoting.mask tail)
  default? : d.column.default? = defaultValue? tail (Quoting.mask tail)
  hasCheck : d.column.hasCheck =
    (checkClause? tail (Quoting.mask tail)).any (beginsWith · "CHECK")
  reference? : d.reference? = inlineReference? tail (Quoting.mask tail)

theorem exists_of_columnHead? {fragment name dataType tail : Text}
    (h : columnHead? (trim fragment) = some (name, dataType, tail)) :
    ∃ d, ColumnDeclaration.ofFragment? fragment = some d ∧ d.column.name = name ∧
      d.column.dataType = dataType ∧ ReadFrom tail d := by
  simp only [ColumnDeclaration.ofFragment?, h, Option.bind_eq_bind, Option.bind_some]
  refine ⟨_, rfl, rfl, rfl, rfl, rfl, ?_, rfl, ?_, rfl⟩
  · have hcheck : ("UNIQUE" : Text) ∉ (checkClause? tail (Quoting.mask tail)).toList :=
      fun hmem => ne_unique_of_checkClause? (Option.mem_toList.1 hmem) rfl
    cases hasPhrase ["UNIQUE"] (Quoting.mask tail) with
    | true => rfl
    | false =>
      rw [Column.isUnique, List.contains_eq_mem]
      exact decide_eq_false hcheck
  · have hunique : ∀ b : Bool,
        (if b then [("UNIQUE" : Text)] else []).any (beginsWith · "CHECK") = false := by decide
    rw [Column.hasCheck, List.any_append]
    refine (congrArg (· || _) (hunique _)).trans ?_
    cases checkClause? tail (Quoting.mask tail) with
    | none => rfl
    | some t => exact Bool.or_false _

theorem width_append_mark {s ms : Text} (h : width ms = width s) (m : Char) :
    width (ms ++ [m]) = width (s ++ [m]) := by
  rw [width_append, width_append, h]

section
variable {m : Char} (hm : isWordChar m = false) (hb : isBlank m = false)
include hm hb

theorem checkMark?_seam (hparen : m ≠ '(') (s t : Text) :
    checkMark? (s ++ m :: t) =
      (checkMark? s).or ((checkMark? t).map (Found.shift (width (s ++ [m])))) := by
  have hstops : ∀ s, StopsAt m (fun t => do mark? '(' (skipBlanks (← keyword? "CHECK" t))) s := by
    intro s
    refine (stopsAt_keyword? hm (by decide) s).bind fun r _ => ?_
    exact (stopsAt_mark? (.inl hparen)).behind (skipBlanks_append_mark hb r)
  exact search?_seam isCapital_check leads_readCheck hm
    (local_of_stopsAt hstops t none s)

theorem checkClause?_front (hparen : m ≠ '(') {u w x v ms : Text}
    (hfound : checkMark? ms = some ⟨width u, width (u ++ (w ++ x)), ()⟩) (t mt : Text) :
    checkClause? (u ++ (w ++ x ++ v) ++ m :: t) (ms ++ m :: mt) =
      (group? (v ++ m :: t)).map fun p => w ++ x ++ p.1 ++ [')'] := by
  have hmark := checkMark?_seam hm hb hparen ms mt
  rw [hfound, Option.some_or] at hmark
  have htext : u ++ (w ++ x ++ v) ++ m :: t = u ++ (w ++ x ++ (v ++ m :: t)) := by simp
  rw [htext, checkClause?_of_found hmark]

variable {s ms : Text} (hwidth : width ms = width s) (t mt : Text)
include hwidth

theorem defaultValue?_behind (hnone : defaultMark? ms = none) :
    defaultValue? (s ++ m :: t) (ms ++ m :: mt) = defaultValue? t mt := by
  rw [defaultValue?, defaultValue?, defaultMark?_seam hm hb, hnone, Option.none_or,
    width_append_mark hwidth, List.append_cons s m t]
  cases defaultMark? mt with
  | none => rfl
  | some found =>
    simp only [Option.map_some, Found.shift, Option.bind_eq_bind, Option.bind_some,
      dropBytes?_width_add]

theorem defaultValue?_front {found : Found Unit} (hfound : defaultMark? ms = some found) :
    defaultValue? (s ++ m :: t) (ms ++ m :: mt) = (dropBytes? found.stop s).bind fun v =>
      if (value (v ++ m :: t)).isEmpty then none else some (value (v ++ m :: t)) := by
  have hstop : found.stop ≤ width s := by
    have hle := stop_le_of_searchFrom? hfound
    rwa [Nat.zero_add, hwidth] at hle
  rw [defaultValue?, defaultMark?_seam hm hb, hfound, Option.some_or]
  simp only [Option.bind_eq_bind, Option.bind_some, dropBytes?_append hstop]
  cases dropBytes? found.stop s <;> rfl

theorem checkClause?_behind (hparen : m ≠ '(') (hnone : checkMark? ms = none) :
    checkClause? (s ++ m :: t) (ms ++ m :: mt) = checkClause? t mt := by
  rw [checkClause?, checkClause?, checkMark?_seam hm hb hparen, hnone, Option.none_or,
    width_append_mark hwidth, List.append_cons s m t]
  cases checkMark? mt with
  | none => rfl
  | some found =>
    simp only [Option.map_some, Found.shift, Option.bind_eq_bind, Option.bind_some, slice?,
      dropBytes?_width_add, Nat.add_sub_add_left]

end

end SchemaDiagram.Sql
