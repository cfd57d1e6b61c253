import SchemaDiagram.Proofs.Xml.Pieces
import SchemaDiagram.Xml.Document

set_option autoImplicit false

namespace SchemaDiagram.Xml

theorem declarationSpaces?_text {a : TagAttribute} (h : a.Valid) (s : Text) :
    declarationSpaces? (a.text ++ s) = some (a.bareText ++ s) := by
  obtain ⟨g, gap, hgap⟩ := List.exists_cons_of_ne_nil h.gap_ne_nil
  have hspace : (a.text ++ s).head?.any isSpace = true := by
    have hg := h.gap g (by simp [hgap])
    simp [TagAttribute.text, hgap, hg]
  have hskip : skipSpaces (a.text ++ s) = a.bareText ++ s := by
    obtain ⟨c, t, hbare, hc⟩ := TagAttribute.exists_bareText_eq_cons h
    rw [TagAttribute.text, List.append_assoc]
    refine skipSpaces_append h.gap ?_
    rw [hbare]
    exact (mark_of_isNameStart hc).1
  rw [declarationSpaces?, hspace, Bool.true_or, if_pos rfl, hskip]

theorem declarationSpaces?_end {gap : Text} (hgap : AreSpaces gap) (s : Text) :
    declarationSpaces? (gap ++ '?' :: '>' :: s) = some ('?' :: '>' :: s) := by
  have hskip : skipSpaces (gap ++ '?' :: '>' :: s) = '?' :: '>' :: s := skipSpaces_append hgap rfl
  cases gap with
  | nil => simp [declarationSpaces?, after?, skipSpaces, isSpace]
  | cons g gap =>
    have hg : isSpace g = true := hgap g List.mem_cons_self
    rw [List.cons_append] at hskip ⊢
    simp [declarationSpaces?, hg, hskip]

namespace Declaration

def behindVersion (d : Declaration) : Text :=
  (d.encoding.elim [] TagAttribute.text) ++ ((d.standalone.elim [] TagAttribute.text) ++
    (d.gap ++ ['?', '>']))

theorem text_eq (d : Declaration) :
    d.text = ['<', '?', 'x', 'm', 'l'] ++ (d.version.text ++ d.behindVersion) := by
  cases hencoding : d.encoding <;> cases hstandalone : d.standalone <;>
    simp [text, attributes, behindVersion, hencoding, hstandalone]

end Declaration

theorem after?_bareText {a : TagAttribute} {name : Text} (h : a.name = ⟨[], name⟩) (s : Text) :
    (after? name (a.bareText ++ s)).isSome = true := by
  have htext : a.bareText ++ s = name ++ (a.beforeSign ++ '=' :: a.behindSign ++
      a.quote :: (Glyph.texts a.value ++ [a.quote]) ++ s) := by
    simp [TagAttribute.bareText, QName.text, h]
  rw [htext, after?_self_append]
  rfl

section
variable {d : Declaration}

def Declaration.ending? (s : Text) : Option Text := do
  let s ←
    if (after? "standalone" s).isSome then do
      let (_, s) ← attribute? s
      some s
    else some s
  after? "?>" (skipSpaces s)

theorem exists_ending? (h : d.Valid) (s : Text) : ∃ ending,
    declarationSpaces? ((d.standalone.elim [] TagAttribute.text) ++ (d.gap ++ '?' :: '>' :: s)) =
      some ending ∧ after? "encoding" ending = none ∧ Declaration.ending? ending = some s := by
  have hskip : skipSpaces (d.gap ++ '?' :: '>' :: s) = '?' :: '>' :: s :=
    skipSpaces_append h.gap rfl
  cases hstandalone : d.standalone with
  | none =>
    refine ⟨_, declarationSpaces?_end h.gap s, by simp [after?], ?_⟩
    simp [Declaration.ending?, after?, skipSpaces, isSpace]
  | some a =>
    have ha : a.Valid := (h.attributes a (by simp [Declaration.attributes, hstandalone])).1
    have hname := h.standalone a hstandalone
    refine ⟨_, declarationSpaces?_text ha _, ?_, ?_⟩
    · simp [TagAttribute.bareText, QName.text, hname, after?]
    · rw [Declaration.ending?, if_pos (after?_bareText hname _),
        TagAttribute.attribute?_bareText ha]
      simp [hskip, after?]

theorem declaration?_text (h : d.Valid) (s : Text) :
    declaration? (d.version.text ++ (d.behindVersion ++ s)) = some s := by
  have hversion : d.version.Valid := (h.attributes _ (by simp [Declaration.attributes])).1
  obtain ⟨rest, hrest⟩ := Option.isSome_iff_exists.1
    (after?_bareText h.version (d.behindVersion ++ s))
  obtain ⟨ending, hspaces, hencoding, hending⟩ := exists_ending? h s
  rw [declaration?, declarationSpaces?_text hversion, Option.bind_eq_bind, Option.bind_some,
    hrest, Option.bind_eq_bind, Option.bind_some, TagAttribute.attribute?_bareText hversion]
  simp only [Option.bind_some]
  cases hgiven : d.encoding with
  | none =>
    have hbehind : d.behindVersion ++ s =
        (d.standalone.elim [] TagAttribute.text) ++ (d.gap ++ '?' :: '>' :: s) := by
      simp [Declaration.behindVersion, hgiven]
    rw [hbehind, hspaces, Option.bind_some, hencoding]
    exact hending
  | some a =>
    have ha : a.Valid := (h.attributes a (by simp [Declaration.attributes, hgiven])).1
    have hbehind : d.behindVersion ++ s = a.text ++
        ((d.standalone.elim [] TagAttribute.text) ++ (d.gap ++ '?' :: '>' :: s)) := by
      simp [Declaration.behindVersion, hgiven]
    rw [hbehind, declarationSpaces?_text ha, Option.bind_some,
      if_pos (after?_bareText (h.encoding a hgiven) _), TagAttribute.attribute?_bareText ha]
    simp only [Option.bind_some, hspaces]
    exact hending

theorem exists_name_of_mem (h : d.Valid) {a : TagAttribute} (ha : a ∈ d.attributes) :
    ∃ name, a.name = ⟨[], name⟩ ∧ ∀ c ∈ name, isAllowed c = true ∧ c ≠ '?' := by
  simp only [Declaration.attributes, List.cons_append, List.mem_cons, List.mem_append,
    Option.mem_toList] at ha
  rcases ha with rfl | ha | ha
  · exact ⟨_, h.version, by decide⟩
  · exact ⟨_, h.encoding a ha, by decide⟩
  · exact ⟨_, h.standalone a ha, by decide⟩

theorem inside_of_isSpace {c : Char} (h : isSpace c = true) : isAllowed c = true ∧ c ≠ '?' := by
  simp only [isSpace, Bool.or_eq_true, decide_eq_true_eq] at h
  rcases h with ((rfl | rfl) | rfl) | rfl <;> decide

theorem inside_of_mem_text (h : d.Valid) {a : TagAttribute} (ha : a ∈ d.attributes) {c : Char}
    (hc : c ∈ a.text) : isAllowed c = true ∧ c ≠ '?' := by
  obtain ⟨hvalid, hplain⟩ := h.attributes a ha
  obtain ⟨name, hname, hchars⟩ := exists_name_of_mem h ha
  have hquote : isAllowed a.quote = true ∧ a.quote ≠ '?' := by
    rcases hvalid.quote with hq | hq <;> rw [hq] <;> decide
  have hvalue : ∀ c ∈ Glyph.texts a.value, isAllowed c = true ∧ c ≠ '?' := by
    intro c hc
    refine ⟨(Glyph.isAllowed_of_mem_texts (fun g hg => (hvalid.value g hg).1) hc).1, ?_⟩
    rintro rfl
    obtain ⟨g, hg, hc⟩ := List.mem_flatMap.1 hc
    have hg := hplain g hg
    cases g with
    | plain d =>
      obtain rfl := List.mem_singleton.1 hc
      exact absurd hg (by decide)
    | named name d => cases hg
    | numbered inHex digits => cases hg
  simp only [TagAttribute.text, TagAttribute.bareText, QName.text, hname, List.isEmpty_nil,
    ↓reduceIte, List.mem_append, List.mem_cons, List.not_mem_nil, or_false, List.append_assoc,
    List.cons_append] at hc
  rcases hc with hc | hc | hc | rfl | hc | rfl | hc | rfl
  · exact inside_of_isSpace (hvalid.gap c hc)
  · exact hchars c hc
  · exact inside_of_isSpace (hvalid.beforeSign c hc)
  · decide
  · exact inside_of_isSpace (hvalid.behindSign c hc)
  · exact hquote
  · exact hvalue c hc
  · exact hquote

/-- A declaration with another space behind its name is taken for an instruction. -/
theorem markup?_declaration (h : d.Valid) (hgap : d.version.gap.head? ≠ some ' ') (s : Text) :
    markup? (d.text ++ s) = some (.remark, s) := by
  obtain ⟨content, hcontent⟩ : ∃ t, t = d.attributes.flatMap TagAttribute.text ++ d.gap := ⟨_, rfl⟩
  have htext : d.text ++ s = '<' :: '?' :: 'x' :: 'm' :: 'l' :: (content ++ '?' :: '>' :: s) := by
    simp [Declaration.text, hcontent]
  have hinside : ∀ c ∈ content, isAllowed c = true ∧ c ≠ '?' := by
    intro c hc
    rw [hcontent, List.mem_append] at hc
    rcases hc with hc | hc
    · obtain ⟨a, ha, hc⟩ := List.mem_flatMap.1 hc
      exact inside_of_mem_text h ha hc
    · exact inside_of_isSpace (h.gap c hc)
  have hprecedes : Precedes content "?>" := by
    refine ⟨fun c hc => (hinside c hc).1, ?_⟩
    rintro ⟨before, behind, heq⟩
    have hsplit : (before ++ ['?']) ++ '>' :: behind = content ++ ['?'] := by simpa using heq
    rcases List.append_eq_append_iff.1 hsplit with ⟨m, hm, -⟩ | ⟨m, -, hm⟩
    · exact (hinside '?' (by simp [hm])).2 rfl
    · have hmem : '>' ∈ m ++ '>' :: behind := by simp
      rw [← hm] at hmem
      exact absurd hmem (by decide)
  have hversion : d.version.Valid := (h.attributes _ (by simp [Declaration.attributes])).1
  obtain ⟨g, gap, hg⟩ := List.exists_cons_of_ne_nil hversion.gap_ne_nil
  have hspace : isSpace g = true := hversion.gap g (by simp [hg])
  obtain ⟨rest, rfl⟩ : ∃ rest, content = g :: rest := by
    simp [hcontent, Declaration.attributes, TagAttribute.text, hg]
  have hblank : g ≠ ' ' := fun hblank => hgap (by simp [hg, hblank])
  have hstart : (g :: rest).head?.all isSpace = true := hspace
  have hread : instruction? (['x', 'm', 'l'] ++ (g :: rest ++ '?' :: '>' :: s)) = some s :=
    instruction?_content (by decide) (by decide) hstart hprecedes s
  rw [htext]
  simp only [List.cons_append, List.nil_append] at hread
  simp [markup?, after?, hblank, hread]

/-- Whatever a document has of a declaration, reading goes on behind it, or passes it as a remark. -/
theorem exists_markups?_declaration {declaration : Option Declaration}
    (h : ∀ d ∈ declaration, d.Valid) {s : Text} (hs : after? "<?xml " s = none) :
    ∃ passed, (passed = [] ∨ passed = [.remark]) ∧
      (skipDeclaration? ((declaration.elim [] Declaration.text) ++ s)).bind markups? =
        (markups? s).map (passed ++ ·) := by
  cases declaration with
  | none =>
    refine ⟨[], .inl rfl, ?_⟩
    rw [Option.elim_none, List.nil_append, skipDeclaration?, hs]
    simp
  | some d =>
    have hd := h d rfl
    rw [Option.elim_some]
    by_cases hgap : d.version.gap.head? = some ' '
    · refine ⟨[], .inl rfl, ?_⟩
      obtain ⟨gap, hgap⟩ := List.head?_eq_some_iff.1 hgap
      have hmark : (after? "<?xml " (d.text ++ s)).isSome = true := by
        simp [Declaration.text_eq, TagAttribute.text, hgap, after?]
      have hdrop : (d.text ++ s).drop 5 = d.version.text ++ (d.behindVersion ++ s) := by
        simp [Declaration.text_eq]
      rw [skipDeclaration?, if_pos hmark, hdrop, declaration?_text hd]
      simp
    · refine ⟨[.remark], .inr rfl, ?_⟩
      have hpiece := markups?_append (by simp [Declaration.text]) (markup?_declaration hd hgap s)
      have hversion : d.version.Valid := (hd.attributes _ (by simp [Declaration.attributes])).1
      obtain ⟨g, gap, hg⟩ := List.exists_cons_of_ne_nil hversion.gap_ne_nil
      have hblank : g ≠ ' ' := fun hblank => hgap (by simp [hg, hblank])
      have hmark : after? "<?xml " (d.text ++ s) = none := by
        simp [Declaration.text_eq, TagAttribute.text, hg, after?, hblank]
      rw [skipDeclaration?, hmark, Option.isSome_none, if_neg Bool.false_ne_true, Option.bind_some,
        hpiece]
      rfl

end

end SchemaDiagram.Xml
