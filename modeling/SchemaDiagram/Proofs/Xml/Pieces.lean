import SchemaDiagram.Proofs.Pieces
import SchemaDiagram.Proofs.Xml.Syntax

set_option autoImplicit false

namespace SchemaDiagram.Xml

section
variable {p : Char → Bool} {a s : Text}

theorem takeWhile_append_of_stop (ha : ∀ c ∈ a, p c = true) (hs : s.head?.any p = false) :
    (a ++ s).takeWhile p = a := by
  rw [List.takeWhile_append_of_pos ha]
  cases s with
  | nil => simp
  | cons c s => simp [show p c = false from hs]

theorem dropWhile_append_of_stop (ha : ∀ c ∈ a, p c = true) (hs : s.head?.any p = false) :
    (a ++ s).dropWhile p = s := by
  rw [List.dropWhile_append_of_pos ha]
  cases s with
  | nil => rfl
  | cons c s => simp [show p c = false from hs]

end

theorem skipSpaces_append {gap s : Text} (hgap : AreSpaces gap)
    (hs : s.head?.any isSpace = false) : skipSpaces (gap ++ s) = s :=
  dropWhile_append_of_stop hgap hs

@[simp] theorem after?_self_append (mark s : Text) : after? mark (mark ++ s) = some s := by
  induction mark with
  | nil => cases s <;> rfl
  | cons c mark ih => simpa [after?] using ih

theorem after?_eq_none {mark s : Text} (h : ¬ mark <+: s) : after? mark s = none := by
  cases hafter : after? mark s with
  | none => rfl
  | some rest => exact absurd ⟨rest, after?_append hafter⟩ h

theorem through?_of_precedes {content mark : Text} (h : Precedes content mark) (hmark : mark ≠ [])
    (s : Text) : through? mark (content ++ (mark ++ s)) = some (content, s) := by
  obtain ⟨hallowed, hlacks⟩ := h
  induction content with
  | nil =>
    obtain ⟨m, rest, rfl⟩ := List.exists_cons_of_ne_nil hmark
    have hafter : after? (m :: rest) (m :: (rest ++ s)) = some s := after?_self_append (m :: rest) s
    rw [List.nil_append, List.cons_append, through?, hafter]
  | cons c content ih =>
    obtain ⟨hc, hcontent⟩ := List.forall_mem_cons.1 hallowed
    -- A mark that began here would be over before the last character of the one behind.
    have hhere : after? mark (c :: (content ++ (mark ++ s))) = none := by
      refine after?_eq_none fun hbegins => hlacks (List.IsPrefix.isInfix ?_)
      have hwhole : c :: content ++ mark.dropLast <+: c :: (content ++ (mark ++ s)) := by
        rw [← List.cons_append]
        exact (List.prefix_append_right_inj _).2 ((List.dropLast_prefix mark).trans
          (List.prefix_append mark s))
      refine List.prefix_of_prefix_length_le hbegins hwhole ?_
      simp
      omega
    have hrest := ih hcontent fun hwithin =>
      hlacks (hwithin.trans (List.suffix_cons c _).isInfix)
    rw [List.cons_append, through?, hhere]
    simp [hc, hrest]

theorem through?_eq_none {mark s : Text} (h : ¬ mark <:+: s) : through? mark s = none := by
  induction s with
  | nil => rfl
  | cons c s ih =>
    have hhere : after? mark (c :: s) = none :=
      after?_eq_none fun hbegins => h hbegins.isInfix
    have hlater : through? mark s = none := ih fun hwithin =>
      h (hwithin.trans (List.suffix_cons c s).isInfix)
    simp [through?, hhere, hlater]

theorem isNamePart_iff {s : Text} : isNamePart s = true ↔
    (∃ c t, s = c :: t ∧ isNameStart c = true) ∧ ∀ c ∈ s, isNameChar c = true ∧ c ≠ ':' := by
  cases s <;> simp [isNamePart]

theorem isNameChar_of_isNameStart {c : Char} (h : isNameStart c = true) : isNameChar c = true := by
  simp [isNameChar, h]

namespace QName

theorem isNameChar_of_mem_text {q : QName} (h : q.isValid = true) {c : Char} (hc : c ∈ q.text) :
    isNameChar c = true := by
  simp only [isValid, Bool.and_eq_true, Bool.or_eq_true, isNamePart_iff] at h
  obtain ⟨hqualifier, -, hlocal⟩ := h
  unfold text at hc
  split at hc
  · exact (hlocal c hc).1
  · rename_i hne
    rcases List.mem_append.1 hc with hc | hc
    · exact ((hqualifier.resolve_left hne).2 c hc).1
    · rcases List.mem_cons.1 hc with rfl | hc
      · decide
      · exact (hlocal c hc).1

theorem exists_text_eq_cons {q : QName} (h : q.isValid = true) :
    ∃ c t, q.text = c :: t ∧ isNameStart c = true := by
  simp only [isValid, Bool.and_eq_true, Bool.or_eq_true, isNamePart_iff] at h
  obtain ⟨hqualifier, hlocal, -⟩ := h
  unfold text
  split
  · exact hlocal
  · rename_i hne
    obtain ⟨⟨c, t, hct, hc⟩, -⟩ := hqualifier.resolve_left hne
    exact ⟨c, t ++ ':' :: q.localName, by simp [hct], hc⟩

theorem splitAt_text {q : QName} (h : q.isValid = true) : Text.splitAt (· = ':') q.text =
    if q.qualifier.isEmpty then [q.localName] else [q.qualifier, q.localName] := by
  simp only [isValid, Bool.and_eq_true, Bool.or_eq_true, isNamePart_iff] at h
  obtain ⟨hqualifier, -, hlocal⟩ := h
  have hlast : Text.splitAt (· = ':') q.localName = [q.localName] :=
    Text.splitAt_of_none fun c hc => decide_eq_false (hlocal c hc).2
  unfold text
  split
  · exact hlast
  · rename_i hne
    have hfirst : Text.splitAt (· = ':') q.qualifier = [q.qualifier] :=
      Text.splitAt_of_none fun c hc => decide_eq_false ((hqualifier.resolve_left hne).2 c hc).2
    rw [Text.splitAt_append_cons (by rfl), hfirst, hlast]
    rfl

end QName

theorem qname?_text {q : QName} (h : q.isValid = true) {s : Text}
    (hs : s.head?.any isNameChar = false) : qname? (q.text ++ s) = some (q, s) := by
  have hchars : ∀ c ∈ q.text, isNameChar c = true := fun c hc => q.isNameChar_of_mem_text h hc
  have hparts : (q.qualifier.head?.all isNameStart && q.localName.head?.any isNameStart) = true := by
    simp only [QName.isValid, Bool.and_eq_true, Bool.or_eq_true, isNamePart] at h ⊢
    refine ⟨?_, h.2.1⟩
    rcases h.1 with hempty | hqualifier
    · simp [List.isEmpty_iff.1 hempty]
    · obtain ⟨c, hc, hstart⟩ := (Option.any_eq_true ..).1 hqualifier.1
      simp [hc, hstart]
  obtain ⟨qualifier, localName⟩ := q
  rw [qname?, takeWhile_append_of_stop hchars hs, dropWhile_append_of_stop hchars hs,
    QName.splitAt_text h]
  by_cases hempty : qualifier.isEmpty
  · obtain rfl := List.isEmpty_iff.1 hempty
    simpa using hparts
  · simpa [hempty] using hparts

theorem head?_append_of_spaces {gap s : Text} {p : Char → Bool} (hgap : AreSpaces gap)
    (hspace : ∀ c, isSpace c = true → p c = false) (hs : s.head?.any p = false) :
    (gap ++ s).head?.any p = false := by
  cases gap with
  | nil => exact hs
  | cons c gap => exact hspace c (hgap c List.mem_cons_self)

theorem not_isNameChar_of_isSpace {c : Char} (h : isSpace c = true) : isNameChar c = false := by
  simp only [isSpace, Bool.or_eq_true, decide_eq_true_eq] at h
  rcases h with ((rfl | rfl) | rfl) | rfl <;> decide

theorem mark_of_isNameStart {c : Char} (h : isNameStart c = true) :
    isSpace c = false ∧ c ≠ '/' ∧ c ≠ '>' ∧ c ≠ '!' ∧ c ≠ '?' := by
  refine ⟨?_, ?_, ?_, ?_, ?_⟩
  · refine Bool.eq_false_iff.2 fun hspace => ?_
    have hnot := not_isNameChar_of_isSpace hspace
    rw [isNameChar_of_isNameStart h] at hnot
    cases hnot
  all_goals
    rintro rfl
    exact absurd h (by decide)

namespace TagAttribute

theorem attribute?_bareText {a : TagAttribute} (h : a.Valid) (s : Text) :
    attribute? (a.bareText ++ s) = some (a.raw, s) := by
  have hglyphs : ∀ g ∈ a.value, g.Valid := fun g hg => (h.value g hg).1
  -- What is behind each piece of the attribute.
  obtain ⟨value, hbehindQuote⟩ : ∃ v, v = Glyph.texts a.value ++ ([a.quote] ++ s) := ⟨_, rfl⟩
  obtain ⟨behind, hbehindSign⟩ : ∃ v, v = a.behindSign ++ a.quote :: value := ⟨_, rfl⟩
  obtain ⟨sign, hbehindName⟩ : ∃ v, v = a.beforeSign ++ '=' :: behind := ⟨_, rfl⟩
  have hall : a.bareText ++ s = a.name.text ++ sign := by
    simp [bareText, hbehindName, hbehindSign, hbehindQuote]
  have hname : qname? (a.name.text ++ sign) = some (a.name, sign) := by
    refine qname?_text h.name ?_
    rw [hbehindName]
    exact head?_append_of_spaces h.beforeSign (fun c => not_isNameChar_of_isSpace) rfl
  have hbefore : skipSpaces sign = '=' :: behind := by
    rw [hbehindName]
    exact skipSpaces_append h.beforeSign rfl
  have hquote : isSpace a.quote = false := by
    rcases h.quote with hq | hq <;> rw [hq] <;> decide
  have hbehind : skipSpaces behind = a.quote :: value := by
    rw [hbehindSign]
    exact skipSpaces_append h.behindSign hquote
  have hvalue : through? [a.quote] value = some (Glyph.texts a.value, s) := by
    rw [hbehindQuote]
    refine through?_of_precedes ⟨fun c hc => (Glyph.isAllowed_of_mem_texts hglyphs hc).1, ?_⟩
      (by simp) s
    -- A quote would have to be one that is written plainly.
    intro hwithin
    rw [List.dropLast_singleton, List.append_nil] at hwithin
    obtain ⟨g, hg, hq⟩ := List.mem_flatMap.1 (hwithin.subset (List.mem_singleton_self a.quote))
    exact (h.value g hg).2 (Glyph.eq_plain_of_mem_text (h.value g hg).1 h.quote hq)
  have htag : '<' ∉ Glyph.texts a.value := fun hmem =>
    (Glyph.isAllowed_of_mem_texts hglyphs hmem).2 rfl
  simp [attribute?, hall, hname, hbefore, after?, hbehind, hvalue, htag, h.quote, raw]

theorem exists_bareText_eq_cons {a : TagAttribute} (h : a.Valid) :
    ∃ c t, a.bareText = c :: t ∧ isNameStart c = true := by
  obtain ⟨c, t, ht, hc⟩ := QName.exists_text_eq_cons h.name
  refine ⟨c, t ++ a.beforeSign ++ '=' :: a.behindSign ++ a.quote :: (Glyph.texts a.value ++
    [a.quote]), ?_, hc⟩
  rw [bareText, ht]
  simp

end TagAttribute

theorem attributes?_end {gap : Text} (hgap : AreSpaces gap) (isEmpty : Bool) (s : Text) :
    attributes? (gap ++ (Tag.startEnd isEmpty ++ s)) = some ([], isEmpty, s) := by
  rw [attributes?]
  cases isEmpty with
  | true =>
    have hend : skipSpaces (gap ++ '/' :: '>' :: s) = '/' :: '>' :: s :=
      skipSpaces_append hgap rfl
    simp [Tag.startEnd, hend]
  | false =>
    have hend : skipSpaces (gap ++ '>' :: s) = '>' :: s := skipSpaces_append hgap rfl
    simp [Tag.startEnd, hend]

theorem attributes?_attribute {a : TagAttribute} (h : a.Valid) (s : Text) :
    attributes? (a.text ++ s) =
      (attributes? s).map fun (as, isEmpty, rest) => (a.raw :: as, isEmpty, rest) := by
  obtain ⟨c, t, hbare, hc⟩ := TagAttribute.exists_bareText_eq_cons h
  obtain ⟨hblank, hslash, hclose, -⟩ := mark_of_isNameStart hc
  have hall : a.text ++ s = a.gap ++ (a.bareText ++ s) := by simp [TagAttribute.text]
  have hspace : (a.gap ++ (a.bareText ++ s)).head?.any isSpace = true := by
    obtain ⟨g, gap, hg⟩ := List.exists_cons_of_ne_nil h.gap_ne_nil
    have hgap := h.gap g (by simp [hg])
    simp [hg, hgap]
  have hskip : skipSpaces (a.gap ++ (a.bareText ++ s)) = a.bareText ++ s := by
    refine skipSpaces_append h.gap ?_
    rw [hbare]
    exact hblank
  have hread := TagAttribute.attribute?_bareText h s
  rw [hall, attributes?]
  split
  · rename_i heq
    rw [hskip, hbare] at heq
    exact absurd (List.cons.inj heq).1 hslash
  · rename_i heq
    rw [hskip, hbare] at heq
    exact absurd (List.cons.inj heq).1 hclose
  · rw [if_pos hspace]
    split
    · rename_i heq
      rw [hskip, hread] at heq
      cases heq
      rfl
    · rename_i heq
      rw [hskip, hread] at heq
      cases heq

theorem attributes?_texts {as : List TagAttribute} (has : ∀ a ∈ as, a.Valid) {gap : Text}
    (hgap : AreSpaces gap) (isEmpty : Bool) (s : Text) :
    attributes? (as.flatMap TagAttribute.text ++ (gap ++ (Tag.startEnd isEmpty ++ s))) =
      some (as.map TagAttribute.raw, isEmpty, s) := by
  induction as with
  | nil => exact attributes?_end hgap isEmpty s
  | cons a as ih =>
    obtain ⟨ha, has⟩ := List.forall_mem_cons.1 has
    rw [List.flatMap_cons, List.append_assoc, attributes?_attribute ha, ih has]
    rfl

theorem Tag.any_isNameChar_behind {t : Tag} (h : t.Valid) (s : Text) :
    (t.attributes.flatMap TagAttribute.text ++ (t.gap ++
      (Tag.startEnd t.endGap.isNone ++ s))).head?.any isNameChar = false := by
  cases hattributes : t.attributes with
  | nil =>
    rw [List.flatMap_nil, List.nil_append]
    refine head?_append_of_spaces h.gap (fun c => not_isNameChar_of_isSpace) ?_
    cases t.endGap <;> rfl
  | cons a as =>
    have ha : a.Valid := h.attributes a (by simp [hattributes])
    obtain ⟨g, gap, hgap⟩ := List.exists_cons_of_ne_nil ha.gap_ne_nil
    have hspace := ha.gap g (by simp [hgap])
    simpa [TagAttribute.text, hgap] using not_isNameChar_of_isSpace hspace

theorem startTag?_startText {t : Tag} (h : t.Valid) (s : Text) : ∃ rest, t.startText ++ s =
    '<' :: rest ∧ startTag? rest =
      some (.startTag t.name (t.attributes.map TagAttribute.raw) t.endGap.isNone, s) := by
  refine ⟨t.name.text ++ (t.attributes.flatMap TagAttribute.text ++ (t.gap ++
    (Tag.startEnd t.endGap.isNone ++ s))), by simp [Tag.startText], ?_⟩
  have hattributes := attributes?_texts h.attributes h.gap t.endGap.isNone s
  have hname := qname?_text h.name (t.any_isNameChar_behind h s)
  simp [startTag?, hname, hattributes]

theorem endTag?_endText {name : QName} (h : name.isValid = true) {gap : Text}
    (hgap : AreSpaces gap) (s : Text) :
    endTag? (name.text ++ (gap ++ '>' :: s)) = some (name, s) := by
  have hname : qname? (name.text ++ (gap ++ '>' :: s)) = some (name, gap ++ '>' :: s) :=
    qname?_text h (head?_append_of_spaces hgap (fun c => not_isNameChar_of_isSpace) rfl)
  have hskip : skipSpaces (gap ++ '>' :: s) = '>' :: s := skipSpaces_append hgap rfl
  simp [endTag?, hname, hskip, after?]

theorem markup?_element {t : Tag} (h : t.Valid) (s : Text) : markup? (t.startText ++ s) =
    some (.startTag t.name (t.attributes.map TagAttribute.raw) t.endGap.isNone, s) := by
  obtain ⟨c, name, hc, hstart⟩ := QName.exists_text_eq_cons h.name
  obtain ⟨-, hslash, -, hcry, hquestion⟩ := mark_of_isNameStart hstart
  obtain ⟨rest, hrest, hread⟩ := startTag?_startText h s
  obtain ⟨behind, rfl⟩ : ∃ behind, rest = c :: behind := by
    have hcons := congrArg List.tail hrest
    rw [Tag.startText, hc] at hcons
    exact ⟨_, hcons.symm⟩
  rw [hrest]
  simp [markup?, after?, hslash, hcry, hquestion, hread]

theorem markup?_endText {name : QName} (h : name.isValid = true) {gap : Text}
    (hgap : AreSpaces gap) (s : Text) :
    markup? ('<' :: '/' :: (name.text ++ (gap ++ '>' :: s))) = some (.endTag name, s) := by
  simp [markup?, after?, endTag?_endText h hgap]

theorem markup?_literal {content : Text} (h : Precedes content "]]>") (s : Text) :
    markup? (literalText content ++ s) = some (.literalText content, s) := by
  have hthrough : through? [']', ']', '>'] (content ++ ']' :: ']' :: '>' :: s) =
      some (content, s) := through?_of_precedes h (by decide) s
  simp [literalText, markup?, after?, hthrough]

theorem infix_of_mem_zip_tail {a b : Char} {s : Text} (h : (a, b) ∈ s.zip s.tail) :
    [a, b] <:+: s := by
  induction s with
  | nil => simp at h
  | cons c s ih =>
    cases s with
    | nil => simp at h
    | cons d s =>
      rcases List.mem_cons.1 h with heq | h
      · obtain ⟨rfl, rfl⟩ := Prod.mk.inj heq
        exact ⟨[], s, rfl⟩
      · exact (ih h).trans (List.suffix_cons c _).isInfix

theorem comment?_content {content : Text} (h : Precedes content "--") (s : Text) :
    comment? (content ++ '-' :: '-' :: '>' :: s) = some s := by
  obtain ⟨hallowed, hlacks⟩ := h
  have hprecedes : Precedes content "-->" := by
    refine ⟨hallowed, ?_⟩
    rintro ⟨before, behind, heq⟩
    have hsplit : (before ++ ['-', '-']) ++ ('>' :: behind) = content ++ ['-', '-'] := by
      simpa using heq
    -- The last character of the mark is no hyphen, so it stands in the content.
    rcases List.append_eq_append_iff.1 hsplit with ⟨m, hm, -⟩ | ⟨m, -, hm⟩
    · exact hlacks ⟨before, m ++ ['-'], by simp [hm]⟩
    · have hmem : '>' ∈ m ++ '>' :: behind := by simp
      rw [← hm] at hmem
      exact absurd hmem (by decide)
  have hthrough : through? ['-', '-', '>'] (content ++ '-' :: '-' :: '>' :: s) = some (content, s) :=
    through?_of_precedes hprecedes (by decide) s
  have hlast : content.getLast? ≠ some '-' := by
    intro hlast
    obtain ⟨before, rfl⟩ := List.getLast?_eq_some_iff.1 hlast
    exact hlacks ⟨before, [], by simp⟩
  have hpair : ('-', '-') ∉ content.zip content.tail := fun hmem =>
    hlacks ((infix_of_mem_zip_tail hmem).trans (List.prefix_append content _).isInfix)
  simp [comment?, hthrough, hlast, hpair]

theorem any_isNameChar_behind_target {content : Text} (hgap : content.head?.all isSpace = true)
    (s : Text) : (content ++ '?' :: '>' :: s).head?.any isNameChar = false := by
  cases content with
  | nil => rfl
  | cons c content => exact not_isNameChar_of_isSpace hgap

theorem instruction?_content {target content : Text}
    (hstart : target.head?.any isNameStart = true) (hchars : ∀ c ∈ target, isNameChar c = true)
    (hgap : content.head?.all isSpace = true) (hprecedes : Precedes content "?>") (s : Text) :
    instruction? (target ++ (content ++ '?' :: '>' :: s)) = some s := by
  obtain ⟨hallowed, hlacks⟩ := hprecedes
  have hrest := dropWhile_append_of_stop hchars (any_isNameChar_behind_target hgap s)
  have hskip : skipSpaces (content ++ '?' :: '>' :: s) =
      skipSpaces content ++ '?' :: '>' :: s := by
    unfold skipSpaces
    rw [List.dropWhile_append]
    split
    · rename_i hempty
      rw [List.isEmpty_iff.1 hempty]
      rfl
    · rfl
  have hskipped : Precedes (skipSpaces content) "?>" := by
    obtain ⟨gap, hgap⟩ := List.dropWhile_suffix isSpace (l := content)
    refine ⟨fun c hc => hallowed c ((List.dropWhile_suffix isSpace).subset hc), fun hwithin =>
      hlacks (hwithin.trans ⟨gap, [], ?_⟩)⟩
    rw [List.append_nil, ← List.append_assoc, skipSpaces, hgap]
  have hthrough : through? ['?', '>'] (skipSpaces content ++ '?' :: '>' :: s) =
      some (skipSpaces content, s) := through?_of_precedes hskipped (by decide) s
  obtain ⟨c, t, rfl⟩ : ∃ c t, target = c :: t := by
    cases target with
    | nil => simp at hstart
    | cons c t => exact ⟨c, t, rfl⟩
  have hc : isNameStart c = true := by simpa using hstart
  rw [List.cons_append] at hrest ⊢
  simp [instruction?, hc, hrest, hskip, hthrough]

namespace Remark

theorem text_eq_cons (r : Remark) : ∃ t, r.text = '<' :: t := by
  cases r
  · exact ⟨_, rfl⟩
  · exact ⟨_, rfl⟩

theorem text_ne_nil (r : Remark) : r.text ≠ [] := by
  obtain ⟨t, ht⟩ := r.text_eq_cons
  simp [ht]

end Remark

theorem after?_declaration_remark {r : Remark} (h : r.Valid) (s : Text) :
    after? "<?xml ".toList (r.text ++ s) = none := by
  cases r with
  | comment content => simp [Remark.text, after?]
  | instruction target content =>
    obtain ⟨-, hchars, htarget, hgap, -⟩ := h
    have hxml : after? ['x', 'm', 'l', ' '] (target ++ (content ++ '?' :: '>' :: s)) = none := by
      refine after?_eq_none fun hbegins => htarget ?_
      obtain ⟨behind, hbehind⟩ := hbegins
      have hname := congrArg (List.takeWhile isNameChar) hbehind
      rw [takeWhile_append_of_stop hchars (any_isNameChar_behind_target hgap s)] at hname
      rw [← hname]
      rfl
    simpa [Remark.text, after?] using hxml

theorem markup?_remark {r : Remark} (h : r.Valid) (s : Text) :
    markup? (r.text ++ s) = some (.remark, s) := by
  cases r with
  | comment content => simp [Remark.text, markup?, after?, comment?_content h]
  | instruction target content =>
    have hdeclaration : after? ['x', 'm', 'l', ' '] (target ++ (content ++ '?' :: '>' :: s)) =
        none := by
      simpa [Remark.text, after?] using after?_declaration_remark h s
    obtain ⟨hstart, hchars, -, hgap, hprecedes⟩ := h
    have hread := instruction?_content hstart hchars hgap hprecedes s
    simp [Remark.text, markup?, after?, hdeclaration, hread]

theorem markup?_data {gs : List Glyph} (hne : gs ≠ []) (h : ∀ g ∈ gs, g.Valid)
    (hend : ¬ "]]>".toList <:+: Glyph.texts gs) {s : Text} (hs : s.head?.all (· = '<') = true) :
    markup? (Glyph.texts gs ++ s) = some (.text (Glyph.texts gs), s) := by
  have hplain : ∀ c ∈ Glyph.texts gs, decide (c ≠ '<') = true := fun c hc =>
    decide_eq_true (Glyph.isAllowed_of_mem_texts h hc).2
  have hstop : s.head?.any (fun c => decide (c ≠ '<')) = false := by
    cases s with
    | nil => rfl
    | cons c s => simpa using hs
  have hallowed : (Glyph.texts gs).all isAllowed = true :=
    List.all_eq_true.2 fun c hc => (Glyph.isAllowed_of_mem_texts h hc).1
  have hread : text? (Glyph.texts gs ++ s) = some (.text (Glyph.texts gs), s) := by
    rw [text?, takeWhile_append_of_stop hplain hstop, dropWhile_append_of_stop hplain hstop]
    have hthrough : through? [']', ']', '>'] (Glyph.texts gs) = none := through?_eq_none hend
    simp [hallowed, hthrough]
  obtain ⟨c, t, hct⟩ := List.exists_cons_of_ne_nil (Glyph.texts_ne_nil hne)
  have hc : c ≠ '<' := of_decide_eq_true (hplain c (by simp [hct]))
  rw [hct] at hread ⊢
  rw [← hread]
  simp [markup?, after?, hc]

theorem markups?_append {p s : Text} {m : Markup} (hp : p ≠ [])
    (h : markup? (p ++ s) = some (m, s)) : markups? (p ++ s) = (markups? s).map (m :: ·) := by
  obtain ⟨c, t, rfl⟩ := List.exists_cons_of_ne_nil hp
  rw [List.cons_append] at h ⊢
  rw [markups?]
  split
  · rename_i heq
    rw [h] at heq
    cases heq
    rfl
  · rename_i heq
    rw [h] at heq
    cases heq

namespace Tag

def endPieces (t : Tag) : List Markup := if t.endGap.isNone then [] else [.endTag t.name]

end Tag

namespace Forest

def pieces : Forest → List Markup
  | nil => []
  | data glyphs rest => .text (Glyph.texts glyphs) :: rest.pieces
  | literal content rest => .literalText content :: rest.pieces
  | remark _ rest => .remark :: rest.pieces
  | element tag inner rest =>
    .startTag tag.name (tag.attributes.map TagAttribute.raw) tag.endGap.isNone ::
      (inner.pieces ++ (tag.endPieces ++ rest.pieces))

theorem head?_text {f : Forest} (h : f.isData = false) {s : Text}
    (hs : s.head?.all (· = '<') = true) : (f.text ++ s).head?.all (· = '<') = true := by
  cases f with
  | nil => exact hs
  | data glyphs rest => cases h
  | literal content rest => simp [text, literalText]
  | remark r rest =>
    obtain ⟨t, ht⟩ := r.text_eq_cons
    simp [text, ht]
  | element tag inner rest => simp [text, Tag.startText]

end Forest

theorem markups?_endText {t : Tag} (h : t.Valid) (s : Text) :
    markups? (t.endText ++ s) = (markups? s).map (t.endPieces ++ ·) := by
  unfold Tag.endText Tag.endPieces
  cases hgap : t.endGap with
  | none => simp
  | some gap =>
    have hread : markup? ('<' :: '/' :: (t.name.text ++ (gap ++ ['>'])) ++ s) =
        some (.endTag t.name, s) := by
      simpa using markup?_endText h.name (h.endGap gap hgap) s
    exact markups?_append (by simp) hread

theorem markups?_element {tag : Tag} {inner : Forest} (htag : tag.Valid)
    (hempty : tag.endGap = none → inner = .nil)
    (hinner : ∀ s : Text, s.head?.all (· = '<') = true →
      markups? (inner.text ++ s) = (markups? s).map (inner.pieces ++ ·)) (s : Text) :
    markups? (tag.startText ++ (inner.text ++ (tag.endText ++ s))) =
      (markups? s).map (.startTag tag.name (tag.attributes.map TagAttribute.raw)
        tag.endGap.isNone :: (inner.pieces ++ tag.endPieces) ++ ·) := by
  have hinside : markups? (inner.text ++ (tag.endText ++ s)) =
      (markups? (tag.endText ++ s)).map (inner.pieces ++ ·) := by
    cases hgap : tag.endGap with
    | none => simp [hempty hgap, Forest.text, Forest.pieces]
    | some gap =>
      refine hinner _ ?_
      simp [Tag.endText, hgap]
  have hnonempty : tag.startText ≠ [] := by simp [Tag.startText]
  rw [markups?_append hnonempty (markup?_element htag _), hinside, markups?_endText htag,
    Option.map_map, Option.map_map]
  simp only [List.cons_append, List.append_assoc]
  rfl

theorem markups?_forest {f : Forest} (h : f.Valid) {s : Text}
    (hs : s.head?.all (· = '<') = true) :
    markups? (f.text ++ s) = (markups? s).map (f.pieces ++ ·) := by
  induction f generalizing s with
  | nil => simp [Forest.text, Forest.pieces]
  | data glyphs rest ih =>
    obtain ⟨hne, hglyphs, hend, hdata, hrest⟩ := h
    have hread := markup?_data hne hglyphs hend (Forest.head?_text hdata hs)
    rw [Forest.text, List.append_assoc, markups?_append (Glyph.texts_ne_nil hne) hread,
      ih hrest hs, Option.map_map]
    rfl
  | literal content rest ih =>
    obtain ⟨hcontent, hrest⟩ := h
    rw [Forest.text, List.append_assoc, markups?_append (by simp [literalText])
      (markup?_literal hcontent _), ih hrest hs, Option.map_map]
    rfl
  | remark r rest ih =>
    obtain ⟨hr, hrest⟩ := h
    rw [Forest.text, List.append_assoc, markups?_append r.text_ne_nil (markup?_remark hr _),
      ih hrest hs, Option.map_map]
    rfl
  | element tag inner rest ihInner ihRest =>
    obtain ⟨htag, hempty, hinner, hrest⟩ := h
    rw [Forest.text, List.append_assoc, List.append_assoc, List.append_assoc,
      markups?_element htag hempty (fun s => ihInner hinner), ihRest hrest hs, Option.map_map]
    simp only [Forest.pieces, List.cons_append, List.append_assoc]
    rfl

theorem plain_of_isSpace {c : Char} (h : isSpace c = true) : (Glyph.plain c).Valid ∧ c ≠ ']' := by
  simp only [isSpace, Bool.or_eq_true, decide_eq_true_eq] at h
  rcases h with ((rfl | rfl) | rfl) | rfl <;> decide

namespace Margin

def gapPieces (gap : Text) : List Markup := if gap.isEmpty then [] else [.text gap]

def pieces (m : Margin) : List Markup :=
  m.remarks.flatMap (fun (gap, _) => gapPieces gap ++ [.remark]) ++ gapPieces m.gap

end Margin

theorem markups?_gap {gap : Text} (hgap : AreSpaces gap) {s : Text}
    (hs : s.head?.all (· = '<') = true) :
    markups? (gap ++ s) = (markups? s).map (Margin.gapPieces gap ++ ·) := by
  unfold Margin.gapPieces
  split
  · rename_i hempty
    simp [List.isEmpty_iff.1 hempty]
  · rename_i hempty
    have hne : gap ≠ [] := fun h => hempty (List.isEmpty_iff.2 h)
    have hglyphs : ∀ g ∈ gap.map Glyph.plain, g.Valid := by
      intro g hg
      obtain ⟨c, hc, rfl⟩ := List.mem_map.1 hg
      exact (plain_of_isSpace (hgap c hc)).1
    have hend : ¬ "]]>".toList <:+: Glyph.texts (gap.map Glyph.plain) := by
      rw [Glyph.texts_map_plain]
      intro hwithin
      have hmem : ']' ∈ gap := hwithin.subset (by decide)
      exact (plain_of_isSpace (hgap _ hmem)).2 rfl
    have hread := markup?_data (by simpa using hne) hglyphs hend hs
    rw [Glyph.texts_map_plain] at hread
    exact markups?_append hne hread

theorem markups?_margin {m : Margin} (h : m.Valid) {s : Text}
    (hs : s.head?.all (· = '<') = true) :
    markups? (m.text ++ s) = (markups? s).map (m.pieces ++ ·) := by
  obtain ⟨remarks, gap⟩ := m
  induction remarks with
  | nil => exact markups?_gap h.gap hs
  | cons p remarks ih =>
    obtain ⟨hp, hremarks⟩ := List.forall_mem_cons.1 h.remarks
    have hrest := ih ⟨hremarks, h.gap⟩
    have hremark := markups?_append p.2.text_ne_nil
      (markup?_remark hp.2 ((Margin.mk remarks gap).text ++ s))
    have hhead : (p.2.text ++ ((Margin.mk remarks gap).text ++ s)).head?.all (· = '<') = true := by
      obtain ⟨t, ht⟩ := p.2.text_eq_cons
      simp [ht]
    have htext : (Margin.mk (p :: remarks) gap).text ++ s =
        p.1 ++ (p.2.text ++ ((Margin.mk remarks gap).text ++ s)) := by
      simp [Margin.text]
    rw [htext, markups?_gap hp.1 hhead, hremark, hrest, Option.map_map, Option.map_map]
    simp [Margin.pieces, Function.comp_def]

end SchemaDiagram.Xml
