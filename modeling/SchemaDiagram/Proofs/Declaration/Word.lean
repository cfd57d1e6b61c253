import SchemaDiagram.Proofs.Declaration.Syntax

set_option autoImplicit false

namespace SchemaDiagram.Declaration
open Sql Unicode Text

namespace Keyword

def all : List Keyword :=
  [.primary, .key, .not, .null, .unique, .default, .check, .references, .on, .delete, .update,
    .cascade, .restrict, .set, .no, .action, .generated, .always, .byWord, .as, .identity]

theorem mem_all (w : Keyword) : w ∈ all := by cases w <;> decide

theorem isCapital (w : Keyword) : IsCapital w.text := by
  have hall : ∀ w ∈ all, IsCapital w.text := by decide
  exact hall w w.mem_all

theorem eq_of_text {v w : Keyword} (h : v.text = w.text) : v = w := by
  have hall : ∀ v ∈ all, ∀ w ∈ all, v.text = w.text → v = w := by decide
  exact hall v v.mem_all w w.mem_all h

end Keyword

namespace Casing
variable (k : Casing)

theorem letter_classes {b : Char} (hb : b.isUpper = true) :
    Script.isAsciiPart (if k b then b.toLower else b) = true ∧
      (if k b then b.toLower else b).toUpper = b := by
  have hall : b.isUpper = true → Script.isAsciiPart b.toLower = true ∧ b.toLower.toUpper = b ∧
      b.toUpper = b :=
    Script.of_isAsciiPart
      (P := fun b => b.isUpper = true → Script.isAsciiPart b.toLower = true ∧
        b.toLower.toUpper = b ∧ b.toUpper = b)
      (by decide +kernel) (Script.isAsciiPart_of_isUpper hb)
  obtain ⟨hpart, hlower, hupper⟩ := hall hb
  split
  · exact ⟨hpart, hlower⟩
  · exact ⟨Script.isAsciiPart_of_isUpper hb, hupper⟩

theorem toLower_toLower {b : Char} (hb : b.isUpper = true) : b.toLower.toLower = b.toLower := by
  have hall : b.isUpper = true → b.toLower.toLower = b.toLower :=
    Script.of_isAsciiPart (P := fun b => b.isUpper = true → b.toLower.toLower = b.toLower)
      (by decide +kernel) (Script.isAsciiPart_of_isUpper hb)
  exact hall hb

theorem spells_letter {a b : Char} (ha : a.isUpper = true) (hb : b.isUpper = true) :
    spells a (if k b then b.toLower else b) = decide (a = b) := by
  obtain ⟨hpart, hupper⟩ := k.letter_classes hb
  by_cases hab : a = b
  · subst hab
    split <;> simp [spells]
  · rw [decide_eq_false hab]
    cases hspells : spells a (if k b then b.toLower else b) with
    | false => rfl
    | true => exact absurd ((Script.toUpper_of_spells ha hpart hspells).symm.trans hupper) hab

theorem spells_capital {a b : Char} (ha : a.isUpper = true) (hb : b.isUpper = true) :
    spells a b = decide (a = b) :=
  spells_letter (fun _ => false) ha hb

theorem plain_spell {w : Text} (hw : IsCapital w) : Script.Plain (k.spell w) := by
  refine ⟨by simpa [spell] using hw.1, ?_⟩
  intro c hc
  obtain ⟨b, hb, rfl⟩ := List.mem_map.1 hc
  exact (k.letter_classes (hw.2 b hb)).1

theorem keyword?_spell {v w : Text} (hv : ∀ c ∈ v, c.isUpper = true)
    (hw : ∀ c ∈ w, c.isUpper = true) : keyword? v (k.spell w) = (keyword? v w).map k.spell := by
  induction v generalizing w with
  | nil => rfl
  | cons a v ih =>
    obtain ⟨ha, hv⟩ := List.forall_mem_cons.1 hv
    cases w with
    | nil => rfl
    | cons b w =>
      obtain ⟨hb, hw⟩ := List.forall_mem_cons.1 hw
      have hspell : k.spell (b :: w) = (if k b then b.toLower else b) :: k.spell w := rfl
      rw [hspell, keyword?, keyword?, k.spells_letter ha hb, spells_capital ha hb, ih hv hw]
      split <;> rfl

theorem keyword?_spell_append {v w : Text} (hv : ∀ c ∈ v, c.isUpper = true) (hw : IsCapital w)
    {rest : Text} (hrest : endsWord rest = true) :
    keyword? v (k.spell w ++ rest) = (keyword? v w).map (k.spell · ++ rest) := by
  rw [keyword?_append hv hrest, k.keyword?_spell hv hw.2, Option.map_map]
  rfl

theorem keyword?_spell_self {w : Text} (hw : ∀ c ∈ w, c.isUpper = true) (rest : Text) :
    keyword? w (k.spell w ++ rest) = some rest := by
  induction w with
  | nil => rfl
  | cons a w ih =>
    obtain ⟨ha, hw⟩ := List.forall_mem_cons.1 hw
    have hspell : k.spell (a :: w) ++ rest =
        (if k a then a.toLower else a) :: (k.spell w ++ rest) := rfl
    rw [hspell, keyword?, k.spells_letter ha ha, ih hw]
    simp

theorem keyword?_of_ne {v w : Keyword} (h : v ≠ w) : keyword? v.text (k.spell w.text) ≠ some [] := by
  intro hread
  have hplain := k.plain_spell w.isCapital
  have hself := k.keyword?_spell_self w.isCapital.2 []
  rw [List.append_nil] at hself
  have hv := Script.capitals_of_keyword? v.isCapital.2 hplain.2 hread
  have hw := Script.capitals_of_keyword? w.isCapital.2 hplain.2 hself
  exact h (Keyword.eq_of_text (hv.symm.trans hw))

end Casing

theorem trim_of_ends {s : Text} (hhead : ∀ c, s.head? = some c → isBlank c = false)
    (hlast : ∀ c, s.getLast? = some c → isBlank c = false) : trim s = s := by
  have hdrop : ∀ t : Text, (∀ c, t.head? = some c → isBlank c = false) → t.dropWhile isBlank = t := by
    intro t ht
    cases t with
    | nil => rfl
    | cons c t => simp [ht c rfl]
  have hreverse : s.reverse.dropWhile isBlank = s.reverse :=
    hdrop s.reverse (by simpa using hlast)
  rw [trim, trimStart, hdrop s hhead, trimEnd, hreverse, List.reverse_reverse]

namespace Part

theorem exists_bare {text : Text} (h : bareName? text = some (text, [])) :
    ∃ c r, text = c :: r ∧ isNameStart c = true ∧ IsBare r := by
  obtain ⟨c, r, htext, hc, hbare⟩ := isBare_of_bareName? h
  exact ⟨c, r, htext, hc, fun d hd => hbare d (by simp [htext, hd])⟩

theorem name? (p : Part) {c : Char} (hc : isNamePart c = false) (rest : Text) :
    name? (p.text ++ c :: rest) = some (p.text, c :: rest) := by
  cases p with
  | bare text h =>
    obtain ⟨d, r, rfl, hd, hr⟩ := exists_bare h
    have hquote : d ≠ '"' := by
      rintro rfl
      exact absurd hd (by decide)
    have htake : (r ++ c :: rest).takeWhile isNamePart = r := by
      rw [List.takeWhile_append_of_pos hr, List.takeWhile_cons_of_neg (by simp [hc]),
        List.append_nil]
    have hdrop : (r ++ c :: rest).dropWhile isNamePart = c :: rest := by
      rw [List.dropWhile_append_of_pos hr, List.dropWhile_cons_of_neg (by simp [hc])]
    rw [Part.text, List.cons_append, Sql.name?, quotedName?_eq_none hquote, bareName?, if_pos hd,
      htake, hdrop]
    rfl
  | quoted inside hne hquote =>
    have htext : (quoted inside hne hquote).text ++ c :: rest =
        '"' :: (inside ++ '"' :: c :: rest) := by simp [Part.text]
    rw [htext, Sql.name?, quotedName?_closed hquote, if_neg hne]
    rfl

theorem exists_cons (p : Part) : ∃ c s, p.text = c :: s ∧ isBlank c = false := by
  cases p with
  | bare text h =>
    obtain ⟨c, r, rfl, -, hbare⟩ := isBare_of_bareName? h
    exact ⟨c, r, rfl, hbare.solid c List.mem_cons_self⟩
  | quoted inside hne hquote => exact ⟨'"', inside ++ ['"'], rfl, by decide⟩

theorem skipBlanks (p : Part) (rest : Text) : skipBlanks (p.text ++ rest) = p.text ++ rest := by
  obtain ⟨c, s, hs, hc⟩ := p.exists_cons
  rw [hs]
  exact skipBlanks_solid hc _

theorem trim (p : Part) : trim p.text = p.text := by
  cases p with
  | bare text h =>
    obtain ⟨c, r, rfl, -, hbare⟩ := isBare_of_bareName? h
    exact trim_of_tidy (tidy_of_solid (List.cons_ne_nil c r) hbare.solid).tidyFrom
  | quoted inside hne hquote =>
    have hblank : isBlank '"' = false := by decide
    have hlast : (quoted inside hne hquote).text.getLast? = some '"' :=
      List.getLast?_concat (l := '"' :: inside)
    refine trim_of_ends (by simp [Part.text, hblank]) ?_
    rintro c hc
    rw [hlast] at hc
    cases hc
    exact hblank

theorem stripQuotes (p : Part) : stripQuotes p.text = p.content := by
  have hdrop : ∀ s : Text, '"' ∉ s → s.dropWhile (· = '"') = s := by
    intro s hs
    cases s with
    | nil => rfl
    | cons c s => simp [ne_of_mem_of_not_mem List.mem_cons_self hs]
  cases p with
  | bare text h =>
    obtain ⟨c, r, rfl, -, hbare⟩ := isBare_of_bareName? h
    have hquote : '"' ∉ c :: r := fun hmem => hbare.ne (by decide) _ hmem rfl
    have hback : '"' ∉ (c :: r).reverse := mt List.mem_reverse.1 hquote
    rw [Part.text, Part.content, Sql.stripQuotes, hdrop _ hquote, hdrop _ hback,
      List.reverse_reverse]
  | quoted inside hne hquote =>
    obtain ⟨c, r, rfl⟩ := List.exists_cons_of_ne_nil hne
    have hc : c ≠ '"' := ne_of_mem_of_not_mem List.mem_cons_self hquote
    have hback : '"' ∉ (c :: r).reverse := mt List.mem_reverse.1 hquote
    have hfirst : ('"' :: (c :: r ++ ['"'])).dropWhile (· = '"') = c :: r ++ ['"'] := by simp [hc]
    have hlast : (c :: r ++ ['"']).reverse = '"' :: (c :: r).reverse := by simp
    rw [Part.text, Part.content, Sql.stripQuotes, hfirst, hlast, List.dropWhile_cons_of_pos (by simp),
      hdrop _ hback, List.reverse_reverse]

theorem normalizeName (p : Part) (hp : p.Plain) : normalizeName p.text = p.content := by
  have hpoint : ∀ c ∈ p.text, decide (c = '.') = false :=
    fun c hc => decide_eq_false (ne_of_mem_of_not_mem hc hp)
  rw [Sql.normalizeName, splitAt_of_none hpoint, List.map_singleton, p.trim, p.stripQuotes]
  simp [join, List.intercalate]

end Part

namespace TableName

theorem isNamePart_marks : isNamePart '.' = false ∧ isNamePart '(' = false ∧
    isNamePart ')' = false ∧ isNamePart ' ' = false := by decide

theorem exists_cons (t : TableName) : ∃ c s, t.text = c :: s ∧ isBlank c = false := by
  obtain ⟨schema?, name⟩ := t
  cases schema? with
  | none => exact name.exists_cons
  | some p =>
    obtain ⟨c, s, hs, hc⟩ := p.exists_cons
    exact ⟨c, s ++ '.' :: name.text, by simp [TableName.text, hs], hc⟩

theorem qualifiedName?_before (t : TableName) {c : Char} (hc : isNamePart c = false) {rest : Text}
    (hsecond : secondPart? (c :: rest) = none) :
    ∃ n : QualifiedName, n.text = t.text ∧
      qualifiedName? (t.text ++ c :: rest) = some (n, c :: rest) := by
  obtain ⟨schema?, name⟩ := t
  have hpoint : isNamePart '.' = false := isNamePart_marks.1
  have hname := name.name? hc rest
  cases schema? with
  | none =>
    refine ⟨⟨[], name.text⟩, rfl, ?_⟩
    rw [TableName.text, Sql.qualifiedName?, hname]
    simp only [Option.bind_eq_bind, Option.bind_some, hsecond]
    rfl
  | some s =>
    have hfirst := s.name? hpoint (name.text ++ c :: rest)
    have hdot : mark? '.' (skipBlanks ('.' :: (name.text ++ c :: rest))) =
        some (name.text ++ c :: rest) := rfl
    have htake : ('.' :: (name.text ++ c :: rest)).take
        (('.' :: (name.text ++ c :: rest)).length - (name.text ++ c :: rest).length) = ['.'] :=
      take_of_eq_append (u := ['.']) rfl
    refine ⟨⟨s.text ++ ['.'], name.text⟩, by simp [QualifiedName.text, TableName.text], ?_⟩
    simp only [TableName.text, List.append_assoc, List.cons_append, Sql.qualifiedName?, hfirst,
      Option.bind_eq_bind, Option.bind_some, secondPart?, hdot, name.skipBlanks, hname, htake]
    rfl

theorem qualifiedName? (t : TableName) (rest : Text) :
    ∃ n : QualifiedName, n.text = t.text ∧
      qualifiedName? (t.text ++ '(' :: rest) = some (n, '(' :: rest) :=
  t.qualifiedName?_before isNamePart_marks.2.1 rfl

theorem normalizeName (t : TableName) (ht : ∀ p ∈ t.parts, p.Plain) :
    normalizeName t.text = t.content := by
  obtain ⟨schema?, name⟩ := t
  cases schema? with
  | none => exact name.normalizeName (ht name (by simp [parts]))
  | some s =>
    have hs : s.Plain := ht s (by simp [parts])
    have hname : name.Plain := ht name (by simp [parts])
    have hleft : splitAt (· = '.') s.text = [s.text] :=
      splitAt_of_none fun c hc => decide_eq_false (ne_of_mem_of_not_mem hc hs)
    have hright : splitAt (· = '.') name.text = [name.text] :=
      splitAt_of_none fun c hc => decide_eq_false (ne_of_mem_of_not_mem hc hname)
    rw [TableName.text, TableName.content, Sql.normalizeName, splitAt_append_cons (by decide), hleft,
      hright]
    simp [join, List.intercalate, s.trim, name.trim, s.stripQuotes, name.stripQuotes]

end TableName

end SchemaDiagram.Declaration
