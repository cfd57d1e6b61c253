import SchemaDiagram.Proofs.Level
import SchemaDiagram.Proofs.Script.Syntax

set_option autoImplicit false

namespace SchemaDiagram.Script
open Sql Unicode Text

def Plain (s : Text) : Prop := s ≠ [] ∧ ∀ c ∈ s, isAsciiPart c = true

instance (s : Text) : Decidable (Plain s) := inferInstanceAs (Decidable (_ ∧ _))

theorem isAlpha_eq (c : Char) : c.isAlpha = (c.isUpper || c.isLower) := rfl

theorem isAsciiPart_lt {c : Char} (h : isAsciiPart c = true) : c.toNat < 128 := by
  have hle : ∀ d : Char, d.toNat < 128 → c.val ≤ d.val → c.toNat < 128 :=
    fun d hd hc => Nat.lt_of_le_of_lt (UInt32.le_iff_toNat_le.1 hc) hd
  simp only [isAsciiPart, Char.isAlphanum, isAlpha_eq, Bool.or_eq_true, decide_eq_true_eq] at h
  rcases h with ((hupper | hlower) | hdigit) | rfl
  · have hcapital : c.val ≥ 'A'.val ∧ c.val ≤ 'Z'.val := of_decide_eq_true hupper
    exact hle 'Z' (by decide) hcapital.2
  · exact hle 'z' (by decide) (of_decide_eq_true (Bool.and_eq_true_iff.1 hlower).2)
  · exact hle '9' (by decide) (of_decide_eq_true (Bool.and_eq_true_iff.1 hdigit).2)
  · decide

theorem of_isAsciiPart {P : Char → Prop} [DecidablePred P]
    (h : ∀ n < 128, isAsciiPart (Char.ofNat n) = true → P (Char.ofNat n)) {c : Char}
    (hc : isAsciiPart c = true) : P c :=
  of_ascii (P := fun c => isAsciiPart c = true → P c) h (isAsciiPart_lt hc) hc

def marks : Text := ['\'', '"', '(', ')', ',', '.', ';', '-', '/', '*', ' ', '\n']

theorem isAsciiPart_classes {c : Char} (hc : isAsciiPart c = true) :
    (isWordChar c = true ∧ isNamePart c = true ∧ isTypePart c = true) ∧
      (isAlphanumeric c || c = '_' || c = '$') = true ∧ isBlank c = false ∧ c ∉ marks ∧
      (isAsciiStart c = true → isNameStart c = true) ∧ (c.isDigit = true → isNameDigit c = true) :=
  of_isAsciiPart
    (P := fun c => (isWordChar c = true ∧ isNamePart c = true ∧ isTypePart c = true) ∧
      (isAlphanumeric c || c = '_' || c = '$') = true ∧ isBlank c = false ∧ c ∉ marks ∧
      (isAsciiStart c = true → isNameStart c = true) ∧ (c.isDigit = true → isNameDigit c = true))
    (by decide +kernel) hc

theorem isAsciiPart_case {c : Char} (hc : isAsciiPart c = true) :
    (c ≠ 'ſ' ∧ c ≠ '\u212A') ∧ c.toLower.toUpper = c.toUpper ∧
      (c.isUpper = true → c.toUpper = c ∧ c.toLower ≠ ' ') ∧
      (c.isDigit = true → c.toUpper.isUpper = false) :=
  of_isAsciiPart
    (P := fun c => (c ≠ 'ſ' ∧ c ≠ '\u212A') ∧ c.toLower.toUpper = c.toUpper ∧
      (c.isUpper = true → c.toUpper = c ∧ c.toLower ≠ ' ') ∧
      (c.isDigit = true → c.toUpper.isUpper = false))
    (by decide +kernel) hc

theorem isAsciiPart_of_isUpper {k : Char} (hk : k.isUpper = true) : isAsciiPart k = true := by
  simp [isAsciiPart, Char.isAlphanum, isAlpha_eq, hk]

theorem mark_classes {c : Char} (hc : c ∈ marks) :
    isWordChar c = false ∧ isNamePart c = false ∧ isTypePart c = false ∧ isNameDigit c = false := by
  have hall : ∀ c ∈ marks, isWordChar c = false ∧ isNamePart c = false ∧ isTypePart c = false ∧
      isNameDigit c = false := by decide
  exact hall c hc

theorem isWordChar_mark {c : Char} (hc : c ∈ marks) : isWordChar c = false := (mark_classes hc).1

@[simp]
theorem isWordChar_space : isWordChar ' ' = false := isWordChar_mark (by decide)

@[simp]
theorem isWordChar_break : isWordChar '\n' = false := isWordChar_mark (by decide)

theorem Word.plain {r : List Text} (w : Word r) : Plain w.text := by
  have h := w.isWord
  cases hw : w.text with
  | nil =>
    rw [hw] at h
    cases h
  | cons c s =>
    rw [hw] at h
    simp only [isAsciiWord, isAsciiStart, Bool.and_eq_true, List.all_eq_true, Bool.or_eq_true] at h
    refine ⟨List.cons_ne_nil c s, ?_⟩
    intro d hd
    rcases List.mem_cons.1 hd with rfl | hd
    · rcases h.1 with halpha | hline
      · simp [isAsciiPart, Char.isAlphanum, halpha]
      · simp [isAsciiPart, hline]
    · exact h.2 d hd

theorem Digits.plain (d : Digits) : Plain d.text := by
  refine ⟨d.nonempty, ?_⟩
  intro c hc
  simp [isAsciiPart, Char.isAlphanum, d.isNumber c hc]

namespace Plain
variable {s : Text} (hs : Plain s)
include hs

theorem isWordChar : ∀ c ∈ s, isWordChar c = true :=
  fun c hc => (isAsciiPart_classes (hs.2 c hc)).1.1

theorem isBlank : ∀ c ∈ s, isBlank c = false := by
  intro c hc
  obtain ⟨-, -, hblank, -⟩ := isAsciiPart_classes (hs.2 c hc)
  exact hblank

theorem ne_mark {m : Char} (hm : m ∈ marks) : ∀ c ∈ s, c ≠ m := by
  rintro c hc rfl
  obtain ⟨-, -, -, hmarks, -⟩ := isAsciiPart_classes (hs.2 c hc)
  exact hmarks hm

theorem flat : Flat s := by
  intro c hc
  have hquote := hs.ne_mark (m := '\'') (by decide) c hc
  have hdouble := hs.ne_mark (m := '"') (by decide) c hc
  refine ⟨?_, hs.ne_mark (by decide) c hc, hs.ne_mark (by decide) c hc⟩
  simp [Quoting.isQuote, hquote, hdouble]

end Plain

theorem Plain.skipBlanks {s : Text} (hs : Plain s) (rest : Text) :
    skipBlanks (s ++ rest) = s ++ rest := by
  obtain ⟨c, t, rfl⟩ := List.exists_cons_of_ne_nil hs.1
  have hc := hs.isBlank c List.mem_cons_self
  simp [Sql.skipBlanks, hc]

theorem Plain.blanks? {s : Text} (hs : Plain s) (rest : Text) :
    blanks? (' ' :: (s ++ rest)) = some (s ++ rest) := by
  have hspace : Unicode.isBlank ' ' = true := by decide
  have hskip := hs.skipBlanks rest
  simp only [Sql.blanks?, hspace, if_true]
  exact congrArg some hskip

theorem Plain.clause? {s : Text} (hs : Plain s) (w rest : Text) :
    clause? [w] (w ++ ' ' :: (s ++ rest)) = some (s ++ rest) := by
  simp [Sql.clause?, keyword?_self, hs.blanks?]

theorem toUpper_of_spells {k c : Char} (hk : k.isUpper = true) (hc : isAsciiPart c = true)
    (h : spells k c = true) : c.toUpper = k := by
  obtain ⟨⟨hlong, hkelvin⟩, -, -, -⟩ := isAsciiPart_case hc
  obtain ⟨-, hlower, hupper, -⟩ := isAsciiPart_case (isAsciiPart_of_isUpper hk)
  have hcapital : k.toUpper = k := (hupper hk).1
  simp only [spells, Bool.or_eq_true, Bool.and_eq_true, decide_eq_true_eq, hlong, hkelvin,
    and_false, or_false] at h
  rcases h with rfl | rfl
  · exact hcapital
  · rw [hlower, hcapital]

theorem capitals_of_keyword? {w s : Text} (hw : ∀ k ∈ w, k.isUpper = true)
    (hs : ∀ c ∈ s, isAsciiPart c = true) (h : keyword? w s = some []) : capitals s = w := by
  induction w generalizing s with
  | nil =>
    cases h
    rfl
  | cons k w ih =>
    cases s with
    | nil => cases h
    | cons c s =>
      simp only [keyword?] at h
      split at h
      · rename_i hspells
        have hrest := ih (fun l hl => hw l (List.mem_cons_of_mem k hl))
          (fun d hd => hs d (List.mem_cons_of_mem c hd)) h
        have hfirst := toUpper_of_spells (hw k List.mem_cons_self) (hs c List.mem_cons_self) hspells
        simpa [capitals, hfirst] using hrest
      · cases h

theorem Word.keyword? {r : List Text} (n : Word r) {w : Text} (hw : w ∈ r)
    (hcapital : IsCapital w) : keyword? w n.text ≠ some [] := by
  intro h
  exact n.isFree (capitals_of_keyword? hcapital.2 n.plain.2 h ▸ hw)

theorem Digits.keyword? (d : Digits) {w : Text} (hw : IsCapital w) :
    keyword? w d.text ≠ some [] := by
  obtain ⟨k, w, rfl⟩ := List.exists_cons_of_ne_nil hw.1
  obtain ⟨c, s, hs⟩ := List.exists_cons_of_ne_nil d.nonempty
  have hc := d.isNumber c (by simp [hs])
  have hpart := d.plain.2 c (by simp [hs])
  have hk := hw.2 k List.mem_cons_self
  obtain ⟨-, -, -, hdigit⟩ := isAsciiPart_case hpart
  intro h
  rw [hs, Sql.keyword?] at h
  split at h
  · rename_i hspells
    rw [← toUpper_of_spells hk hpart hspells, hdigit hc] at hk
    cases hk
  · cases h

theorem Word.wholePhrase? {r : List Text} (n : Word r) {w : Text} (hw : w ∈ r)
    (hcapital : IsCapital w) (ws : List Text) {rest : Text} (hrest : endsWord rest = true) :
    wholePhrase? (w :: ws) (n.text ++ rest) = none := by
  refine (leads_wholePhrase? w ws).eq_none ?_
  cases h : Sql.wholePhrase? [w] (n.text ++ rest) with
  | none => rfl
  | some t =>
    have hread := keyword?_of_wholePhrase? hcapital.2 n.plain.isWordChar hrest (by simp [h])
    exact absurd hread (n.keyword? hw hcapital)

theorem Word.clause? {r : List Text} (n : Word r) {w : Text} (hw : w ∈ r)
    (hcapital : IsCapital w) (ws : List Text) {rest : Text} (hrest : endsWord rest = true) :
    clause? (w :: ws) (n.text ++ rest) = none :=
  (leads_clause? w ws).eq_none (n.wholePhrase? hw hcapital [] hrest)

theorem Word.exists_cons {r : List Text} (w : Word r) :
    ∃ c s, w.text = c :: s ∧ isNameStart c = true ∧ c ≠ '"' ∧ ∀ d ∈ s, isAsciiPart d = true := by
  obtain ⟨c, s, hs⟩ := List.exists_cons_of_ne_nil w.plain.1
  have hword := w.isWord
  rw [hs, isAsciiWord, Bool.and_eq_true] at hword
  have hpart := w.plain.2 c (by simp [hs])
  obtain ⟨-, -, -, -, hstart, -⟩ := isAsciiPart_classes hpart
  have hquote := w.plain.ne_mark (m := '"') (by decide) c (by simp [hs])
  exact ⟨c, s, hs, hstart hword.1, hquote, fun d hd => w.plain.2 d (by simp [hs, hd])⟩

theorem Word.name? {r : List Text} (w : Word r) {c : Char} (hc : c ∈ marks) (rest : Text) :
    name? (w.text ++ c :: rest) = some (w.text, c :: rest) := by
  obtain ⟨d, s, hs, hstart, hquote, hparts⟩ := w.exists_cons
  have hname : ∀ e ∈ s, isNamePart e = true :=
    fun e he => (isAsciiPart_classes (hparts e he)).1.2.1
  have hend := (mark_classes hc).2.1
  have hquoted : quotedName? (d :: (s ++ c :: rest)) = none := by
    unfold quotedName?
    split
    · rename_i heq
      cases heq
      exact absurd rfl hquote
    · rfl
  have hbare : bareName? (d :: (s ++ c :: rest)) = some (d :: s, c :: rest) := by
    rw [bareName?, if_pos hstart, List.takeWhile_append_of_pos hname,
      List.dropWhile_append_of_pos hname]
    simp [hend]
  rw [hs, List.cons_append, Sql.name?, hquoted, hbare]
  rfl

theorem Word.qualifiedName? {r : List Text} (w : Word r) {c : Char} (hc : c ∈ marks) {rest : Text}
    (hrest : secondPart? (c :: rest) = none) :
    qualifiedName? (w.text ++ c :: rest) = some (⟨[], w.text⟩, c :: rest) := by
  simp [Sql.qualifiedName?, w.name? hc, hrest]

theorem Plain.trim {s : Text} (hs : Plain s) : trim s = s :=
  trim_of_tidy (tidy_of_solid hs.1 hs.isBlank).tidyFrom

theorem normalizeName_of_trim {s t : Text} (hpoint : ∀ c ∈ s, c ≠ '.') (htrim : trim s = t)
    (ht : ∀ c ∈ t, c ≠ '"') : normalizeName s = t := by
  have hquote : ∀ c ∈ t, decide (c = '"') = false := fun c hc => decide_eq_false (ht c hc)
  have hdrop : ∀ u : Text, (∀ c ∈ u, decide (c = '"') = false) → u.dropWhile (· = '"') = u := by
    intro u hu
    cases u with
    | nil => rfl
    | cons c u => rw [List.dropWhile_cons, hu c List.mem_cons_self, if_neg Bool.false_ne_true]
  have hstrip : stripQuotes t = t := by
    rw [stripQuotes, hdrop t hquote, hdrop t.reverse (by simpa using hquote), List.reverse_reverse]
  rw [normalizeName, splitAt_of_none (by simpa using hpoint), List.map_singleton, htrim, hstrip]
  simp [join, List.intercalate]

theorem normalizeName_of_plain {s : Text} (hs : Plain s) : normalizeName s = s :=
  normalizeName_of_trim (hs.ne_mark (by decide)) hs.trim (hs.ne_mark (by decide))

theorem splitAt_join {p : Text} {ps : List Text} (h : ∀ q ∈ p :: ps, ∀ c ∈ q, c ≠ ',') :
    splitAt (· = ',') (join ", " (p :: ps)) = p :: ps.map (' ' :: ·) := by
  have hfirst : ∀ c ∈ p, decide (c = ',') = false := by simpa using h p List.mem_cons_self
  induction ps generalizing p with
  | nil =>
    have hone : join ", " [p] = p := by simp [join, List.intercalate]
    rw [hone, splitAt_of_none hfirst]
    rfl
  | cons q qs ih =>
    have hrest : ∀ r ∈ q :: qs, ∀ c ∈ r, c ≠ ',' := fun r hr => h r (List.mem_cons_of_mem p hr)
    have hjoin : join ", " (p :: q :: qs) = p ++ ',' :: ' ' :: join ", " (q :: qs) := by
      rw [join_cons _ _ (List.cons_ne_nil q qs), List.append_assoc]
      rfl
    have hspace : splitAt (· = ',') (' ' :: join ", " (q :: qs)) =
        (' ' :: q) :: qs.map (' ' :: ·) := by
      rw [splitAt_cons, ih hrest (by simpa using hrest q List.mem_cons_self)]
      rfl
    rw [hjoin, splitAt_append_cons (by simp), splitAt_of_none hfirst, hspace]
    rfl

theorem nameList_listText {names : List Name} (h : names ≠ []) :
    nameList (listText names) = nameTexts names := by
  obtain ⟨n, ns, rfl⟩ := List.exists_cons_of_ne_nil h
  have hcomma : ∀ q ∈ nameTexts (n :: ns), ∀ c ∈ q, c ≠ ',' := by
    intro q hq
    obtain ⟨m, -, rfl⟩ := List.mem_map.1 hq
    exact m.plain.ne_mark (by decide)
  have hfirst : normalizeName n.text = n.text := normalizeName_of_plain n.plain
  have hothers : (nameTexts ns).map (normalizeName ∘ (' ' :: ·)) = nameTexts ns := by
    rw [nameTexts, List.map_map]
    refine List.map_congr_left ?_
    intro m _
    refine normalizeName_of_trim ?_ (by rw [trim_space, m.plain.trim]) (m.plain.ne_mark (by decide))
    intro c hc
    rcases List.mem_cons.1 hc with rfl | hc
    · decide
    · exact m.plain.ne_mark (by decide) c hc
  have hnonempty : ∀ q ∈ nameTexts (n :: ns), (!q.isEmpty) = true := by
    intro q hq
    obtain ⟨m, -, rfl⟩ := List.mem_map.1 hq
    simpa using m.plain.1
  have hsplit : splitAt (· = ',') (join ", " (n.text :: nameTexts ns)) =
      n.text :: (nameTexts ns).map (' ' :: ·) := splitAt_join hcomma
  have hcons : nameTexts (n :: ns) = n.text :: nameTexts ns := rfl
  rw [nameList, listText, hcons, hsplit, List.map_cons, List.map_map, hothers, hfirst, ← hcons]
  exact List.filter_eq_self.2 hnonempty

theorem flat_listText (names : List Name) : Flat (listText names) := by
  have hcomma : Flat ", " := by decide
  induction names with
  | nil => exact nofun
  | cons n ns ih =>
    cases ns with
    | nil =>
      have hone : listText [n] = n.text := by simp [listText, nameTexts, join, List.intercalate]
      rw [hone]
      exact n.plain.flat
    | cons m ms =>
      rw [listText, nameTexts, List.map_cons, join_cons _ _ (by simp)]
      exact (n.plain.flat.append hcomma).append ih

theorem parenthesized?_of_flat {s : Text} (hs : Flat s) (rest : Text) :
    parenthesized? ('(' :: (s ++ [')']) ++ rest) = some (s, rest) := by
  have hclose : ∀ c ∈ s, decide (c ≠ ')') = true := by
    intro c hc
    simpa using (hs c hc).2.2
  have hopen : mark? '(' (skipBlanks ('(' :: (s ++ ')' :: rest))) = some (s ++ ')' :: rest) := rfl
  have hgroup : '(' :: (s ++ [')']) ++ rest = '(' :: (s ++ ')' :: rest) := by simp
  simp only [parenthesized?, hgroup, Option.bind_eq_bind, hopen, Option.bind_some]
  rw [List.dropWhile_append_of_pos hclose, List.takeWhile_append_of_pos hclose]
  simp [mark?]

theorem parenthesized?_group (names : List Name) (rest : Text) :
    parenthesized? (groupText names ++ rest) = some (listText names, rest) :=
  parenthesized?_of_flat (flat_listText names) rest

end SchemaDiagram.Script
