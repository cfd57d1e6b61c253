import SchemaDiagram.Proofs.Body.Name
import SchemaDiagram.Proofs.Body.Part
import SchemaDiagram.Proofs.Declaration.Default
import SchemaDiagram.Proofs.Declaration.TypeEnd

/-!
A column with a default in a body. Its blanks are collapsed before it is read, and a value stays a
value then: a gap inside of quotes or groups leaves the scan as it was, however long the gap is.
-/

set_option autoImplicit false

namespace SchemaDiagram.Sql
open Text Unicode Declaration

variable {s t : Text} {n : Nesting}

theorem foldl_gap (hn : n.quoting.Regular) {b : Char} (hb : isBlank b = true) (s : Text) :
    (b :: s).foldl Nesting.step n = (skipBlanks s).foldl Nesting.step n.settled := by
  induction s generalizing n b with
  | nil =>
    rw [List.foldl_cons, Nesting.step_blank hn hb]
    rfl
  | cons c s ih =>
    rw [List.foldl_cons, Nesting.step_blank hn hb]
    by_cases hc : isBlank c = true
    · rw [ih (n := n.settled) hn.settled hc, n.settled_settled, skipBlanks_blank hc]
    · rw [skipBlanks_solid (by simpa using hc)]

theorem solidEnd_tail {c : Char} (h : SolidEnd (c :: s)) : SolidEnd s := by
  intro d hd
  refine h d ?_
  rw [List.getLast?_cons, hd]
  rfl

theorem solidEnd_skipBlanks (h : SolidEnd s) : SolidEnd (skipBlanks s) := by
  intro d hd
  refine h d ?_
  rw [← List.takeWhile_append_dropWhile (p := isBlank) (l := s), List.getLast?_append]
  rw [skipBlanks] at hd
  rw [hd]
  rfl

theorem eq_nil_of_solidEnd (hs : ∀ c ∈ s, isBlank c = true) (hend : SolidEnd s) : s = [] := by
  by_contra hne
  have hblank := hs _ (List.getLast_mem hne)
  rw [hend _ (List.getLast?_eq_some_getLast hne)] at hblank
  cases hblank

theorem foldl_alike (h : Alike s t) (hs : SolidEnd s) (ht : SolidEnd t)
    (hn : n.quoting.Regular) : s.foldl Nesting.step n = t.foldl Nesting.step n := by
  induction h generalizing n with
  | ends hblank hblank' => rw [eq_nil_of_solidEnd hblank hs, eq_nil_of_solidEnd hblank' ht]
  | solid hc h ih => exact ih (solidEnd_tail hs) (solidEnd_tail ht) (hn.step _)
  | gap hb hb' h ih =>
    rw [foldl_gap hn hb, foldl_gap hn hb']
    exact ih (solidEnd_skipBlanks (solidEnd_tail hs)) (solidEnd_skipBlanks (solidEnd_tail ht))
      hn.settled

theorem quiet_alike (h : Alike s t) (ht : SolidEnd t) (hn : n.quoting.Regular)
    (hs : Quiet Nesting.step Nesting.stops n s) : Quiet Nesting.step Nesting.stops n t := by
  have hstop : ∀ {n : Nesting} {b c : Char}, isBlank b = true → isBlank c = true →
      n.stops b = false → n.stops c = false ∧ n.settled.stops c = false := by
    intro n b c hb hc hn
    have hdeep : n.quoting.isOpen = true ∨ n.depth ≠ 0 := by
      by_contra hflat
      rw [not_or, not_not, Bool.not_eq_true] at hflat
      rw [stops_blank hflat.1 hflat.2 hb] at hn
      cases hn
    rcases hdeep with hopen | hdepth
    · simp [Nesting.stops, Nesting.settled, Quoting.covers, isOpen_settled, hopen]
    · exact ⟨stops_deep hdepth c, stops_deep (n := n.settled) hdepth c⟩
  induction h generalizing n with
  | ends hblank hblank' =>
    rw [eq_nil_of_solidEnd hblank' ht]
    trivial
  | solid hc h ih => exact ⟨hs.1, ih (solidEnd_tail ht) (hn.step _) hs.2⟩
  | @gap b b' s t hb hb' h ih =>
    obtain ⟨hfirst, hrest⟩ := hs
    rw [Nesting.step_blank hn hb] at hrest
    -- From the state behind a gap, the rest of the gap changes nothing.
    have hskip : ∀ u : Text, Quiet Nesting.step Nesting.stops n.settled u ↔
        Quiet Nesting.step Nesting.stops n.settled (skipBlanks u) := by
      intro u
      induction u with
      | nil => exact Iff.rfl
      | cons c u ihu =>
        by_cases hc : isBlank c = true
        · rw [skipBlanks_blank hc, ← ihu, Quiet, Nesting.step_blank hn.settled hc, n.settled_settled,
            and_iff_right (hstop hb hc hfirst).2]
        · rw [skipBlanks_solid (by simpa using hc)]
    refine ⟨(hstop hb hb' hfirst).1, ?_⟩
    rw [Nesting.step_blank hn hb', hskip]
    exact ih (solidEnd_skipBlanks (solidEnd_tail ht)) hn.settled ((hskip s).1 hrest)

theorem solidEnd_collapse (hs : SolidEnd s) : SolidEnd (collapse s) := by
  intro c hc
  rcases List.eq_nil_or_concat s with rfl | ⟨r, d, rfl⟩
  · cases hc
  · rw [List.concat_eq_append] at hs hc
    have hd := hs d List.getLast?_concat
    obtain ⟨u, hu, -⟩ := exists_collapse_append hd r
    rw [hu, List.getLast?_concat] at hc
    cases hc
    exact hd

end SchemaDiagram.Sql

namespace SchemaDiagram.Declaration
open Sql Text Unicode

theorem IsToken.exists_cons {s : Text} (hs : IsToken s) :
    ∃ c r, s = c :: r ∧ isBlank c = false := by
  obtain ⟨c, r, rfl⟩ := List.exists_cons_of_ne_nil hs.nonempty
  refine ⟨c, r, rfl, ?_⟩
  by_contra hblank
  have hstop := stops_blank (n := .start) rfl rfl (by simpa using hblank)
  rw [hs.quiet.1] at hstop
  cases hstop

theorem IsToken.collapse {s : Text} (hs : IsToken s) : IsToken (collapse s) := by
  obtain ⟨c, r, rfl, hc⟩ := hs.exists_cons
  have hstart : Nesting.start.quoting.Regular := Quoting.regular_start
  have hend : SolidEnd (c :: r) := fun _ hlast => hs.getLast? hlast
  have halike := alike_collapse (c :: r)
  rw [skipBlanks_solid hc] at halike
  have hfoldl := foldl_alike halike hend (solidEnd_collapse hend) hstart
  have hquoting := Nesting.quoting_foldl (Text.collapse (c :: r)) .start
  have hquoting' := Nesting.quoting_foldl (c :: r) .start
  obtain ⟨u, hu⟩ := exists_collapse_solid hc r
  refine ⟨by simp [hu], quiet_alike halike (solidEnd_collapse hend) hstart hs.quiet, ?_, ?_⟩
  · rw [show Quoting.start = Nesting.start.quoting from rfl, ← hquoting, ← hfoldl, hquoting']
    exact hs.closed
  · rw [← hfoldl]
    exact hs.level

theorem Part.exists_cons_collapse (p : Part) : ∃ c u, collapse p.text = c :: u := by
  obtain ⟨q, hq⟩ := p.exists_collapsed
  obtain ⟨c, s, hcons, -⟩ := q.exists_cons
  exact ⟨c, s, hq.symm.trans hcons⟩

structure Gap where
  text : Text
  nonempty : text ≠ []
  blank : ∀ c ∈ text, isBlank c = true

def Gap.space : Gap := ⟨[' '], by decide, by decide⟩

/-- A name, a type and a default, with any blanks between them. -/
structure DefaultColumn where
  name : Part
  isColumnName : IsColumnName name.text
  dataType : Text
  isType : dataType? (collapse dataType) = some (collapse dataType, [])
  whole : Whole dataType
  casing : Casing
  value : Value
  afterName : Gap
  afterType : Gap
  afterWord : Gap

namespace DefaultColumn
variable (d : DefaultColumn)

def text : Text :=
  d.name.text ++ (d.afterName.text ++ (d.dataType ++ (d.afterType.text ++
    (d.casing.spell Keyword.default.text ++ (d.afterWord.text ++ d.value.text)))))

def collapsedValue : Value := ⟨collapse d.value.text, d.value.isToken.collapse⟩

/-- The column shows name, type and default of the declaration. -/
structure Shown (d : DefaultColumn) (c : Column) : Prop where
  name : c.name = normalizeName (collapse d.name.text)
  dataType : c.dataType = collapse d.dataType
  default : c.default? = some (collapse d.value.text)

theorem whole_text : Whole d.text := by
  have hword := d.casing.plain_spell Keyword.default.isCapital
  exact d.name.inside.whole.append_gap d.afterName.nonempty d.afterName.blank
    (d.whole.append_gap d.afterType.nonempty d.afterType.blank
      ((inside_plain hword).whole.append_gap d.afterWord.nonempty d.afterWord.blank
        d.value.isToken.whole))

theorem collapse_dataType_ne_nil : collapse d.dataType ≠ [] := by
  intro hnil
  have htype := d.isType
  rw [hnil] at htype
  cases htype

def tail : Text := spacedPieces d.casing [.word .default, .value d.collapsedValue]

theorem collapse_text :
    collapse d.text = collapse d.name.text ++ ' ' :: (collapse d.dataType ++ d.tail) := by
  have hword := d.casing.plain_spell Keyword.default.isCapital
  have hspelled : collapse (d.casing.spell Keyword.default.text) =
      d.casing.spell Keyword.default.text :=
    collapse_of_tidy (tidy_of_solid hword.1 hword.isBlank).tidyFrom
  have hvalue : collapse d.value.text ≠ [] := d.value.isToken.collapse.nonempty
  have hname : collapse d.name.text ≠ [] := by
    obtain ⟨c, u, hcons⟩ := d.name.exists_cons_collapse
    simp [hcons]
  have hdefault := collapse_append_gap (s := d.casing.spell Keyword.default.text)
    (by rw [hspelled]; exact hword.1) hvalue d.afterWord.nonempty d.afterWord.blank
  have htype := collapse_append_gap d.collapse_dataType_ne_nil (by rw [hdefault]; simp)
    d.afterType.nonempty d.afterType.blank
  rw [text, collapse_append_gap hname (by rw [htype]; simp) d.afterName.nonempty d.afterName.blank,
    htype, hdefault, hspelled]
  simp [tail, spacedPieces, spaced, Piece.text, collapsedValue]

theorem collapse_text_ne_nil : collapse d.text ≠ [] := by
  rw [d.collapse_text]
  exact List.append_ne_nil_of_right_ne_nil _ (List.cons_ne_nil _ _)

theorem ofFragment (table : Text) :
    ∃ c key?, Use.ofFragment table (collapse d.text) = .column c key? ∧ d.Shown c := by
  obtain ⟨q, hq⟩ := d.name.exists_collapsed
  have hname : IsColumnName q.text := hq ▸ d.isColumnName.collapse
  have hfollows : Follows d.casing d.tail :=
    .inr ⟨.default, by decide, spacedPieces d.casing [.value d.collapsedValue],
      endsWord_spaced _, rfl⟩
  have hsolid : skipBlanks (collapse d.dataType ++ d.tail) = collapse d.dataType ++ d.tail := by
    obtain ⟨c, u, hcons, hc⟩ := exists_cons_collapse d.collapse_dataType_ne_nil
    rw [hcons]
    exact skipBlanks_solid hc (u ++ d.tail)
  have hvalue : defaultValue? d.tail (Quoting.mask d.tail) = some (collapse d.value.text) := by
    have hopens : OpensDefault [.word .default, .value d.collapsedValue] := trivial
    rw [tail, mask_pieces, defaultValue?_pieces d.casing hopens]
    rfl
  have htrim := trim_collapse d.text
  rw [d.collapse_text, ← hq] at htrim ⊢
  obtain ⟨c, key?, huse, hcolumn, htype, hdefault⟩ :=
    hname.ofFragment htrim (dataType?_append hfollows d.isType) hsolid table
  exact ⟨c, key?, huse, by rw [hcolumn, hq], htype, hdefault.trans hvalue⟩

end DefaultColumn

theorem whole_typeWord {T : Text} (hT : typeWord? T = some []) : Whole T := by
  have hparts := isTypePart_of_typeWord? hT
  have hne : ∀ m : Char, isTypePart m = false → ∀ c ∈ T, c ≠ m := by
    rintro m hm c hc rfl
    rw [hparts c hc] at hm
    cases hm
  refine Whole.of_flat ?_ (hne ',' (by decide))
  intro c hc
  have hquote : Quoting.isQuote c = false := by
    simp [Quoting.isQuote, hne '\'' (by decide) c hc, hne '"' (by decide) c hc]
  exact ⟨hquote, hne '(' (by decide) c hc, hne ')' (by decide) c hc⟩

theorem ofFragment_typeWord {p : Part} (hp : IsColumnName p.text) {T : Text}
    (hT : typeWord? T = some []) (table : Text) :
    collapse (p.text ++ ' ' :: T) = collapse p.text ++ ' ' :: T ∧
      Use.ofFragment table (collapse p.text ++ ' ' :: T) =
        .column { name := normalizeName (collapse p.text), dataType := T } none := by
  have hcollapse : collapse (p.text ++ ([' '] ++ T)) = collapse p.text ++ ' ' :: T := by
    obtain ⟨c, u, hcons⟩ := p.exists_cons_collapse
    obtain ⟨d, s, rfl, -, -⟩ := exists_of_typeWord? hT
    have hword : collapse (d :: s) = d :: s :=
      collapse_of_tidy (tidy_of_solid (List.cons_ne_nil d s) (solid_of_typeWord? hT)).tidyFrom
    rw [collapse_append_gap (by simp [hcons]) (by simp [hword]) (List.cons_ne_nil ' ' [])
      (List.forall_mem_singleton.2 isBlank_space), hword]
  obtain ⟨q, hq⟩ := p.exists_collapsed
  have hname : IsColumnName q.text := hq ▸ hp.collapse
  have htrim := trim_collapse (p.text ++ ([' '] ++ T))
  rw [hcollapse, ← hq] at htrim
  have hdeclared := ofFragment?_head htrim (q.columnHead?_typeWord hT)
  refine ⟨hcollapse, ?_⟩
  rw [← hq, (hname.beginsAsColumn htrim).ofFragment hdeclared, opensClause_append,
    hname.opensNoClause]
  rfl

/-- A column with a default and another one behind it are two columns, and nothing is left out: the
body is not cut inside of the value, and the value does not end before the comma. -/
theorem readTable_default (d : DefaultColumn) {e : Part} (he : IsColumnName e.text) {T : Text}
    (hT : typeWord? T = some []) (mode : Mode) (name : Text) (record : List Skipped) :
    ∃ t c, (Schema.readTable mode ⟨name, d.text ++ ',' :: ' ' :: (e.text ++ ' ' :: T)⟩).run record =
        .ok (t, record) ∧
      t.columns = [c, { name := normalizeName (collapse e.text), dataType := T }] ∧
      t.constraints = [] ∧ d.Shown c := by
  obtain ⟨c, key?, hc, hshown⟩ := d.ofFragment name
  obtain ⟨hcollapse, huse⟩ := ofFragment_typeWord he hT name
  have hlast : Whole (' ' :: (e.text ++ ' ' :: T)) :=
    (e.inside.whole.append_blank isBlank_space (whole_typeWord hT)).cons_blank isBlank_space
  have hfragments : bodyFragments (d.text ++ ',' :: ' ' :: (e.text ++ ' ' :: T)) =
      [collapse d.text, collapse e.text ++ ' ' :: T] := by
    have hwhole : ∀ p ∈ [d.text, ' ' :: (e.text ++ ' ' :: T)], Whole p :=
      List.forall_mem_cons.2 ⟨d.whole_text, List.forall_mem_singleton.2 hlast⟩
    have hparts := bodyFragments_join hwhole
    have hlast : collapse (' ' :: (e.text ++ ' ' :: T)) = collapse e.text ++ ' ' :: T := by
      rw [collapse_blank isBlank_space, hcollapse]
    rw [join_comma_cons, join, List.intercalate_singleton] at hparts
    rw [hparts, collapsedParts_cons d.collapse_text_ne_nil,
      collapsedParts_cons (by simp [hlast]), hlast]
    rfl
  have hpass : onePass name [collapse d.text, collapse e.text ++ ' ' :: T] =
      { columns := [c, { name := normalizeName (collapse e.text), dataType := T }]
        foreignKeys := key?.toList } := by
    simp [onePass_eq, hc, huse, Use.column?, Use.keyColumns, Use.allForeignKeys, Use.raw?,
      Use.record?]
  have hrun := run_readTable mode name (d.text ++ ',' :: ' ' :: (e.text ++ ' ' :: T)) record
  rw [hfragments, hpass, Mode.result_nil] at hrun
  exact ⟨_, c, hrun, rfl, rfl, hshown⟩

def nestedColumn : DefaultColumn where
  name := .quoted "unit  price" (by decide) (by decide)
  isColumnName := isColumnName_quoted _
  dataType := "numeric(10,  2)"
  isType := by decide +kernel
  whole := by decide +kernel
  casing := fun _ => false
  value := ⟨"coalesce(NULL,  'it''s, (', (\"a,b\"))::text", by decide, by decide +kernel,
    by decide +kernel, by decide +kernel⟩
  afterName := ⟨"\n", by decide, by decide⟩
  afterType := .space
  afterWord := .space

theorem readTable_default_nested :
    nestedColumn.text = ("\"unit  price\"\nnumeric(10,  2) DEFAULT " ++
        "coalesce(NULL,  'it''s, (', (\"a,b\"))::text" : String).toList ∧
      ∃ t c, (Schema.readTable .strict ⟨"t",
          nestedColumn.text ++ ',' :: ' ' :: (("unique_id" : Text) ++ ' ' :: ("INT" : Text))⟩).run [] =
          .ok (t, []) ∧
        t.columns = [c, { name := "unique_id", dataType := "INT" }] ∧ t.constraints = [] ∧
        c.name = "unit price" ∧ c.dataType = "numeric(10, 2)" ∧
        c.default? = some "coalesce(NULL, 'it''s, (', (\"a,b\"))::text" := by
  have hname : IsColumnName (Part.bare "unique_id" (by decide +kernel)).text := by decide +kernel
  obtain ⟨t, c, hrun, hcolumns, hconstraints, hshown⟩ :=
    readTable_default nestedColumn hname (T := "INT") (by decide +kernel) .strict "t" []
  have hsecond : normalizeName (collapse (Part.bare "unique_id" (by decide +kernel)).text) =
      ("unique_id" : Text) := by decide +kernel
  refine ⟨?_, t, c, hrun, ?_, hconstraints, ?_, ?_, ?_⟩
  · rw [String.toList_append, String.toList_ofList, String.toList_ofList]
    decide +kernel
  · rw [hcolumns, hsecond]
  · rw [hshown.name]
    decide +kernel
  · rw [hshown.dataType]
    decide +kernel
  · rw [hshown.default]
    decide +kernel

/-- Square brackets are no groups: the comma inside of them ends the default and the fragment. -/
theorem readTable_default_array :
    (Schema.readTable .lenient ⟨"t", "c TEXT[] DEFAULT ARRAY['a', 'b'], d INT"⟩).run [] =
      .ok ({
        name := "t"
        columns := [{ name := "c", dataType := "TEXT[]", default? := some "ARRAY['a'" },
          { name := "d", dataType := "INT" }] },
        [⟨"table t", "'b']", .unrecognizedColumn⟩]) := by
  decide +kernel

end SchemaDiagram.Declaration
