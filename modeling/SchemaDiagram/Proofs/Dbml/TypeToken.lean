import SchemaDiagram.Dbml.TypeName
import SchemaDiagram.Proofs.LetterCase
import SchemaDiagram.Proofs.TypeParts

/-!
What is written for a type is one token: in double quotes, or without blanks outside its groups. Whether
it needs quotes is told from the words in front of the first group and from what follows the last one.
So the words between two groups are overlooked, and these are those of a time zone
(`isTypeToken_dataType_iff`).
-/

set_option autoImplicit false

namespace SchemaDiagram.Dbml
open Text Unicode Sql

/-- What stands outside groups, given whether one is open. A group ends at the first closing
parenthesis. -/
def outsideGroups : Bool → Text → Text
  | _, [] => []
  | true, c :: s => outsideGroups (c ≠ ')') s
  | false, c :: s => if c = '(' then outsideGroups true s else c :: outsideGroups false s

def IsTypeToken (s : Text) : Prop :=
  (∃ u, s = '"' :: (u ++ ['"'])) ∨ ∀ c ∈ outsideGroups false s, isBlank c = false

theorem outsideGroups_append {u : Text} (h : '(' ∉ u) (s : Text) :
    outsideGroups false (u ++ s) = u ++ outsideGroups false s := by
  induction u with
  | nil => rfl
  | cons c u ih =>
    obtain ⟨hc, hu⟩ := not_or.1 (mt List.mem_cons.2 h)
    rw [List.cons_append, outsideGroups, if_neg (Ne.symm hc), ih hu, List.cons_append]

theorem outsideGroups_inside {u : Text} (h : ')' ∉ u) (s : Text) :
    outsideGroups true (u ++ s) = outsideGroups true s := by
  induction u with
  | nil => rfl
  | cons c u ih =>
    obtain ⟨hc, hu⟩ := not_or.1 (mt List.mem_cons.2 h)
    rw [List.cons_append, outsideGroups, decide_eq_true (Ne.symm hc), ih hu]

theorem outsideGroups_group {u : Text} (h : ')' ∉ u) (s : Text) :
    outsideGroups false ('(' :: (u ++ ')' :: s)) = outsideGroups false s := by
  rw [outsideGroups, if_pos rfl, outsideGroups_inside h, outsideGroups]
  rfl

theorem any_isBlank_outsideGroups (inside : Bool) (before s : Text) :
    (outsideGroups inside (lowerAfter before s)).any isBlank =
      (outsideGroups inside s).any isBlank := by
  induction s generalizing inside before with
  | nil => rfl
  | cons c s ih =>
    obtain ⟨u, hu, hsign, hother⟩ := exists_lowerAfter_cons before c s
    rw [hu]
    cases hc : isSign c with
    | true =>
      rw [hsign hc, List.singleton_append]
      cases inside with
      | true => exact ih _ _
      | false =>
        simp only [outsideGroups]
        split
        · exact ih _ _
        · rw [List.any_cons, List.any_cons, ih]
    | false =>
      -- What the character becomes holds neither blanks nor parentheses.
      have hnot : ∀ m, isSign m = true → m ∉ u ∧ m ≠ c := by
        refine fun m hm => ⟨fun hmem => ?_, ?_⟩
        · rw [hother hc m hmem] at hm
          cases hm
        · rintro rfl
          rw [hc] at hm
          cases hm
      have hblank : ∀ d, isSign d = false → isBlank d = false :=
        fun d hd => (Bool.or_eq_false_iff.1 hd).1
      cases inside with
      | true =>
        rw [outsideGroups_inside (hnot ')' (by decide)).1, ih, outsideGroups,
          decide_eq_true (hnot ')' (by decide)).2.symm]
      | false =>
        have hu' : u.any isBlank = false :=
          List.any_eq_false.2 fun d hd => Bool.eq_false_iff.1 (hblank d (hother hc d hd))
        rw [outsideGroups_append (hnot '(' (by decide)).1, List.any_append, ih, hu', outsideGroups,
          if_neg (hnot '(' (by decide)).2.symm, List.any_cons, hblank c hc]

theorem not_mem_baseType {b : Text} (h : '(' ∉ b) : '(' ∉ baseType b := by
  rcases baseType_cases b with hlower | hname
  · rw [hlower, mem_lower_iff (by decide)]
    exact h
  · have hall : ∀ t ∈ typeNames.map Prod.snd, '(' ∉ t := by decide
    exact hall _ hname

/-- A word that is spelled in any letter case is known by its capitals. The Kelvin sign is a spelling
that is a capital of its own. -/
theorem capitals?_of_spells {w u : Text}
    (hw : ∀ k ∈ w, k ≠ 'K' ∧ capital? k = some [k] ∧ capital? k.toLower = some [k])
    (h : Spells w u) : capitals? u = some w := by
  induction w generalizing u with
  | nil =>
    cases h
    rfl
  | cons k w ih =>
    obtain ⟨⟨hkelvin, hcapital, hsmall⟩, hw⟩ := List.forall_mem_cons.1 hw
    cases u with
    | nil => cases h
    | cons c u =>
      obtain ⟨hc, h⟩ := Option.ite_none_right_eq_some.1 h
      have hc : capital? c = some [k] := by
        simp only [spells, Bool.or_eq_true, Bool.and_eq_true, decide_eq_true_eq] at hc
        rcases hc with ((rfl | rfl) | ⟨rfl, rfl⟩) | ⟨rfl, -⟩
        · exact hcapital
        · exact hsmall
        · decide
        · exact absurd rfl hkelvin
      simp only [capitals?, hc, ih hw h]
      rfl

theorem baseType_of_isTime {u : Text} (h : IsTime u) :
    baseType u = "time" ∨ baseType u = "timestamp" := by
  unfold baseType
  rcases h with h | h
  · right
    have hname : typeNames.lookup ("TIMESTAMP" : Text) = some ("timestamp" : Text) := by decide
    rw [capitals?_of_spells (by decide) h, Option.bind_some, hname, Option.getD_some]
  · left
    have hname : typeNames.lookup ("TIME" : Text) = some ("time" : Text) := by decide
    rw [capitals?_of_spells (by decide) h, Option.bind_some, hname, Option.getD_some]

theorem trimEnd_append_gap {b gap : Text} (hend : Declaration.SolidEnd b) (hgap : IsGap gap) :
    trimEnd (b ++ gap) = b := by
  have hblank : gap.reverse.dropWhile isBlank = [] :=
    List.dropWhile_eq_nil_iff.2 fun c hc => hgap c (List.mem_reverse.1 hc)
  rcases List.eq_nil_or_concat' b with rfl | ⟨u, c, rfl⟩
  · rw [List.nil_append, trimEnd, hblank, List.reverse_nil]
  · have hc : isBlank c = false := hend c List.getLast?_concat
    rw [List.append_assoc, List.singleton_append, trimEnd_append_mark hc, trimEnd, hblank,
      List.reverse_nil]

theorem dataType_eq {b gap s : Text} (hb : IsName b) (hgap : IsGap gap)
    (hs : s.head?.all isParameterMark = true)
    (hend : Declaration.SolidEnd (gap ++ s)) :
    dataType (b ++ (gap ++ s)) =
      if (baseType b).any isBlank || (afterParameters s).any isBlank then
        '"' :: (baseType b ++ lower s ++ ['"'])
      else baseType b ++ lower s := by
  have htrim : trim (b ++ (gap ++ s)) = b ++ gap ++ s := by
    rw [List.append_assoc]
    refine Declaration.trim_of_ends ?_ (hb.last.append hend)
    obtain ⟨c, u, rfl, hc⟩ := hb.head
    rintro d hd
    cases hd
    exact hc
  have hwords : ∀ c ∈ b ++ gap, (!isParameterMark c) = true := by
    intro c hc
    have hne : c ≠ '(' ∧ c ≠ '[' := by
      rcases List.mem_append.1 hc with hc | hc
      · exact ⟨(hb.unmarked c hc).1, (hb.unmarked c hc).2.2⟩
      · exact ⟨ne_of_mem_of_not_mem hc (not_mem_of_isGap hgap (by decide)),
          ne_of_mem_of_not_mem hc (not_mem_of_isGap hgap (by decide))⟩
    simp [isParameterMark, hne]
  have hmark : s.takeWhile (fun c => !isParameterMark c) = [] ∧
      s.dropWhile (fun c => !isParameterMark c) = s := by
    cases s with
    | nil => exact ⟨rfl, rfl⟩
    | cons c s =>
      have hc : isParameterMark c = true := hs
      simp [hc]
  simp only [dataType, htrim, List.takeWhile_append_of_pos hwords,
    List.dropWhile_append_of_pos hwords, hmark, List.append_nil, trimEnd_append_gap hb.last hgap]
  rfl

theorem any_isBlank_written {b : Text} (hb : '(' ∉ b) (s : Text) :
    (outsideGroups false (baseType b ++ lower s)).any isBlank =
      ((baseType b).any isBlank || (outsideGroups false s).any isBlank) := by
  rw [outsideGroups_append (not_mem_baseType hb), List.any_append, lower,
    any_isBlank_outsideGroups]

/-- What is written is a token if it needs quotes, or if only its groups hold blanks. -/
theorem isTypeToken_of {b gap s : Text} (hb : IsName b) (hgap : IsGap gap)
    (hs : s.head?.all isParameterMark = true)
    (hend : Declaration.SolidEnd (gap ++ s))
    (hrest : (outsideGroups false s).any isBlank = (afterParameters s).any isBlank) :
    IsTypeToken (dataType (b ++ (gap ++ s))) := by
  rw [dataType_eq hb hgap hs hend]
  split
  · exact .inl ⟨_, rfl⟩
  · rename_i hblank
    rw [← hrest, ← any_isBlank_written fun hmem => (hb.unmarked _ hmem).1 rfl, Bool.not_eq_true,
      List.any_eq_false] at hblank
    exact .inr fun c hc => Bool.eq_false_iff.2 (hblank c hc)

theorem afterParameters_group {v : Text} (h : ')' ∉ v) (u : Text) :
    afterParameters (u ++ ')' :: v) = v := by
  have hsplit : splitAt (· = ')') v = [v] :=
    splitAt_of_none fun c hc => decide_eq_false (ne_of_mem_of_not_mem hc h)
  rw [afterParameters, splitAt_append_cons (decide_eq_true rfl), hsplit, List.getLastD_concat]

theorem afterParameters_none {s : Text} (h : ')' ∉ s) : afterParameters s = s := by
  have hsplit : splitAt (· = ')') s = [s] :=
    splitAt_of_none fun c hc => decide_eq_false (ne_of_mem_of_not_mem hc h)
  rw [afterParameters, hsplit]
  rfl

theorem outsideGroups_none {s : Text} (h : '(' ∉ s) : outsideGroups false s = s := by
  have happend := outsideGroups_append h []
  rwa [List.append_nil, outsideGroups, List.append_nil] at happend

/-- Two lists, and no blanks behind the second one. -/
def Relisted (p : TypeParts) : Prop :=
  p.precision ≠ [] ∧ p.parameters ≠ [] ∧ ∀ c ∈ p.arrays, isBlank c = false

theorem Relisted.two_le_count {p : TypeParts} (h : Relisted p) (hp : p.Valid) :
    2 ≤ p.text.count '(' := by
  obtain ⟨hprecision, hparameters, -⟩ := h
  have hfirst : IsList p.precision := hp.zone.elim (fun hz => absurd hz.1 hprecision) fun hz => hz.2.1
  have hsecond : IsList p.parameters := hp.parameters.resolve_left hparameters
  have hfirst := List.one_le_count_iff.2 hfirst.mem
  have hsecond := List.one_le_count_iff.2 hsecond.mem
  simp only [TypeParts.text, List.count_append]
  omega

/-- The words between two lists decide nothing: without blanks behind the second list there are no
quotes, and the words have blanks. -/
theorem isTypeToken_two_lists {b gap inside zone gap' inside' arrays : Text} (hb : IsTime b)
    (hgap : IsGap gap) (hinside : ')' ∉ inside) (hzone : IsZone zone) (hinside' : ')' ∉ inside')
    (hgap' : IsGap gap') (harrays : Maybe IsMarks arrays) :
    IsTypeToken (dataType (b ++ (gap ++ '(' :: (inside ++ ')' :: (zone ++
      (gap' ++ '(' :: (inside' ++ ')' :: arrays))))))) ↔ ∃ c ∈ arrays, isBlank c = true := by
  obtain ⟨hopen, hclose, hend⟩ := unlisted_of_marks harrays
  obtain ⟨⟨z, hz, hblank⟩, hzone, -, -⟩ := hzone.exists_blank
  have hafter : afterParameters ('(' :: (inside ++ ')' :: (zone ++
      (gap' ++ '(' :: (inside' ++ ')' :: arrays))))) = arrays := by
    have hlast := afterParameters_group hclose
      ('(' :: (inside ++ ')' :: (zone ++ (gap' ++ '(' :: inside'))))
    simpa only [List.cons_append, List.append_assoc] using hlast
  have houtside : outsideGroups false ('(' :: (inside ++ ')' :: (zone ++
      (gap' ++ '(' :: (inside' ++ ')' :: arrays))))) = zone ++ (gap' ++ arrays) := by
    rw [outsideGroups_group hinside, outsideGroups_append hzone,
      outsideGroups_append (not_mem_of_isGap hgap' (by decide)), outsideGroups_group hinside',
      outsideGroups_none hopen]
  have hbase : (baseType b).any isBlank = false ∧ (baseType b).head? = some 't' := by
    rcases baseType_of_isTime hb with h | h <;> rw [h] <;> decide
  have hsolid := solidEnd_list gap inside (v := zone ++ (gap' ++ '(' :: (inside' ++ ')' :: arrays))) <| by
    rw [← List.append_assoc]
    exact solidEnd_list (zone ++ gap') inside' hend
  rw [dataType_eq hb.isName hgap rfl hsolid, hafter, hbase.1,
    Bool.false_or, ← List.any_eq_true]
  split
  · rename_i hquoted
    exact iff_of_true (.inl ⟨_, rfl⟩) hquoted
  · rename_i hunquoted
    refine iff_of_false ?_ hunquoted
    rintro (⟨u, hu⟩ | hblanks)
    · have hhead := congrArg List.head? hu
      rw [List.head?_append, hbase.2] at hhead
      cases hhead
    · have hany := any_isBlank_written (fun hmem => (hb.isName.unmarked _ hmem).1 rfl)
        ('(' :: (inside ++ ')' :: (zone ++ (gap' ++ '(' :: (inside' ++ ')' :: arrays)))))
      rw [houtside, List.any_append, List.any_eq_true.2 ⟨z, hz, hblank⟩, Bool.true_or,
        Bool.or_true, List.any_eq_true] at hany
      obtain ⟨c, hc, hblank⟩ := hany
      rw [hblanks c hc] at hblank
      cases hblank

theorem isTypeToken_one_list {b gap inside v : Text} (hb : IsName b) (hgap : IsGap gap)
    (hinside : ')' ∉ inside) (hv : '(' ∉ v ∧ ')' ∉ v ∧ Declaration.SolidEnd v) :
    IsTypeToken (dataType (b ++ (gap ++ '(' :: (inside ++ ')' :: v)))) := by
  obtain ⟨hopen, hclose, hend⟩ := hv
  refine isTypeToken_of hb hgap rfl
    (solidEnd_list gap inside hend) ?_
  rw [outsideGroups_group hinside, outsideGroups_none hopen, ← List.cons_append,
    afterParameters_group hclose]

theorem isTypeToken_no_list {b arrays : Text} (hb : IsName b) (harrays : Maybe IsMarks arrays) :
    IsTypeToken (dataType (b ++ arrays)) := by
  obtain ⟨hopen, hclose, hend⟩ := unlisted_of_marks harrays
  rcases harrays with rfl | ⟨gap, inside, rfl, hgap, -⟩
  · have hnil : IsGap ([] : Text) := nofun
    have h := isTypeToken_of (s := []) hb hnil rfl nofun rfl
    rwa [List.append_nil] at h
  · refine isTypeToken_of hb hgap rfl hend ?_
    rw [outsideGroups_none fun hmem => hopen (List.mem_append_right gap hmem),
      afterParameters_none fun hmem => hclose (List.mem_append_right gap hmem)]

/-- A type is written as one token unless it has two lists and no blanks behind them. -/
theorem isTypeToken_dataType_iff {p : TypeParts} (hp : p.Valid) :
    IsTypeToken (dataType p.text) ↔ ¬ Relisted p := by
  obtain ⟨name, precision, zone, parameters, arrays⟩ := p
  obtain ⟨hname, hzone, hparameters, harrays⟩ := hp
  have hfree := unlisted_of_marks harrays
  simp only [TypeParts.text] at *
  rcases hzone with ⟨rfl, rfl⟩ | ⟨htime, ⟨gap, inside, rfl, hgap, hinside⟩, hzone⟩
  · refine iff_of_true ?_ fun h => h.1 rfl
    rcases hparameters with rfl | ⟨gap, inside, rfl, hgap, hinside⟩
    · exact isTypeToken_no_list hname harrays
    · have h := isTypeToken_one_list hname hgap hinside hfree
      simpa using h
  · rcases hparameters with rfl | ⟨gap', inside', rfl, hgap', hinside'⟩
    · refine iff_of_true ?_ fun h => h.2.1 rfl
      obtain ⟨-, hopen, hclose, hend⟩ := hzone.exists_blank
      have hrest : '(' ∉ zone ++ arrays ∧ ')' ∉ zone ++ arrays ∧
          Declaration.SolidEnd (zone ++ arrays) := by
        simp [hopen, hclose, hfree, hend.append]
      have h := isTypeToken_one_list hname hgap hinside hrest
      simpa using h
    · have h := isTypeToken_two_lists htime hgap hinside hzone hinside' hgap' harrays
      simpa [Relisted] using h

/-- What is written for the type of a column that was read. -/
theorem isTypeToken_column {fragment : Text} {d : ColumnDeclaration}
    (h : ColumnDeclaration.ofFragment? fragment = some d) :
    ∃ p : TypeParts, p.Valid ∧ p.text = d.column.dataType ∧
      (IsTypeToken (dataType d.column.dataType) ↔ ¬ Relisted p) := by
  obtain ⟨⟨name, type, tail⟩, hhead, hd⟩ := Option.bind_eq_some_iff.1 h
  cases hd
  obtain ⟨_, _, _, -, -, htype, -⟩ := columnHead?_eq_some_iff.1 hhead
  obtain ⟨p, hp, htext⟩ := exists_parts_of_dataType? htype
  exact ⟨p, hp, htext, htext ▸ isTypeToken_dataType_iff hp⟩

theorem isTypeToken_column_zoned :
    let parts : TypeParts := ⟨"TIMESTAMP", " (3)", " WITH TIME ZONE", "", " [ ]"⟩
    let d : ColumnDeclaration := ⟨{
      name := "c"
      dataType := "TIMESTAMP (3) WITH TIME ZONE [ ]"
      isNotNull := true }, none⟩
    ColumnDeclaration.ofFragment? "c TIMESTAMP (3) WITH TIME ZONE [ ] NOT NULL" = some d ∧
      parts.Valid ∧ parts.text = d.column.dataType ∧ ¬ Relisted parts ∧
      dataType d.column.dataType = ['"'] ++ "timestamp(3) with time zone [ ]" ++ ['"'] ∧
      IsTypeToken (dataType d.column.dataType) := by
  intro parts d
  have hd : ColumnDeclaration.ofFragment? "c TIMESTAMP (3) WITH TIME ZONE [ ] NOT NULL" = some d := by
    decide +kernel
  have htime : IsTime parts.name := .inl (by decide +kernel)
  have hprecision : IsList parts.precision := ⟨" ", "3", rfl, by decide, by decide⟩
  have hspace : IsSpace " " := by decide
  have hzone : IsZone parts.zone :=
    ⟨" ", "WITH TIME ZONE", rfl, hspace, "WITH", " TIME ZONE", rfl, .inr (by decide +kernel),
      " ", "TIME ZONE", rfl, hspace, "TIME", " ZONE", rfl, by decide +kernel,
      " ", "ZONE", rfl, hspace, by decide +kernel⟩
  have harrays : IsMarks parts.arrays := ⟨" ", " ", rfl, by decide, by decide, by decide⟩
  have hparts : parts.Valid :=
    ⟨htime.isName, .inr ⟨htime, hprecision, hzone⟩, .inl rfl, .inr harrays⟩
  obtain ⟨p, hp, htext, htoken⟩ := isTypeToken_column hd
  have hcount : p.text.count '(' = 1 := by
    rw [htext]
    decide +kernel
  have honce : ¬ Relisted p := fun h => by
    have htwo := h.two_le_count hp
    omega
  exact ⟨hd, hparts, by decide +kernel, fun h => h.2.1 rfl, by decide +kernel, htoken.2 honce⟩

/-- A precision of its own behind the words of the zone leaves the type without quotes. -/
theorem dataType_of_two_lists :
    (ColumnDeclaration.ofFragment? "c TIMESTAMP(3) WITH TIME ZONE(6)").map
        (fun d => dataType d.column.dataType) = some ("timestamp(3) with time zone(6)" : Text) ∧
      ¬ IsTypeToken "timestamp(3) with time zone(6)" := by
  refine ⟨by decide +kernel, ?_⟩
  rintro (⟨u, hu⟩ | hblanks)
  · have hhead : ("timestamp(3) with time zone(6)" : Text).head? = some '"' := congrArg List.head? hu
    exact absurd hhead (by decide)
  · exact absurd (hblanks ' ' (by decide)) (by decide)

end SchemaDiagram.Dbml
