import SchemaDiagram.Xml.Reference

/-!
Characters as they are written in a document, and what readers make of them. References are read
as what they stand for, and a text comes back as long as none of its characters is written plainly
that a reader takes for another one (`attributeText_written`, `dataText_written`).
-/

set_option autoImplicit false

namespace SchemaDiagram.Xml
open Text

/-- A character as it is written: as itself, by a name, or by its number. -/
inductive Glyph where
  | plain (c : Char)
  | named (name : Text) (c : Char)
  | numbered (inHex : Bool) (digits : Text)
  deriving DecidableEq

namespace Glyph

def base (inHex : Bool) : Nat := if inHex then 16 else 10

def isDigit (inHex : Bool) (c : Char) : Bool := if inHex then isHexDigit c else c.isDigit

def text : Glyph → Text
  | plain c => [c]
  | named name _ => '&' :: (name ++ [';'])
  | numbered inHex digits => '&' :: '#' :: ((if inHex then ['x'] else []) ++ digits ++ [';'])

def char : Glyph → Char
  | plain c => c
  | named _ c => c
  | numbered inHex digits => Char.ofNat (digitsValue (base inHex) digits)

def isReference : Glyph → Bool
  | plain _ => false
  | _ => true

def written (g : Glyph) : Written := ⟨g.char, g.isReference⟩

def Valid : Glyph → Prop
  | plain c => isAllowed c = true ∧ c ≠ '&' ∧ c ≠ '<'
  | named name c => (name, c) ∈ namedCharacters
  | numbered inHex digits => digits ≠ [] ∧ (∀ d ∈ digits, isDigit inHex d = true) ∧
    isScalar (digitsValue (base inHex) digits) = true ∧
    isAllowed (Char.ofNat (digitsValue (base inHex) digits)) = true

instance : DecidablePred Valid
  | plain _ => inferInstanceAs (Decidable (_ ∧ _))
  | named _ _ => inferInstanceAs (Decidable (_ ∈ _))
  | numbered _ _ => inferInstanceAs (Decidable (_ ∧ _))

theorem text_ne_nil (g : Glyph) : g.text ≠ [] := by
  cases g <;> simp [text]

end Glyph

def isReferenceChar (c : Char) : Bool := c.isAlphanum || c = '#'

theorem isReferenceChar_iff {c : Char} : isReferenceChar c = true ↔
    (('A' ≤ c ∧ c ≤ 'Z' ∨ 'a' ≤ c ∧ c ≤ 'z') ∨ c.isDigit = true) ∨ c = '#' := by
  have h : isReferenceChar c = (decide ('A' ≤ c ∧ c ≤ 'Z') ||
    (decide ('a' ≤ c) && decide (c ≤ 'z')) || c.isDigit || decide (c = '#')) := rfl
  simp only [h, Bool.or_eq_true, Bool.and_eq_true, decide_eq_true_eq]

theorem range_of_isReferenceChar {c : Char} (h : isReferenceChar c = true) :
    c.toNat = 35 ∨ 48 ≤ c.toNat ∧ c.toNat ≤ 57 ∨ 65 ≤ c.toNat ∧ c.toNat ≤ 90 ∨
      97 ≤ c.toNat ∧ c.toNat ≤ 122 := by
  simp only [isReferenceChar_iff, Char.isDigit, Bool.and_eq_true, decide_eq_true_eq, ge_iff_le,
    Char.le_def, UInt32.le_iff_toNat_le] at h
  rcases h with ((h | h) | h) | rfl
  · exact .inr (.inr (.inl h))
  · exact .inr (.inr (.inr h))
  · exact .inr (.inl h)
  · exact .inl rfl

theorem isReferenceChar_of_isDigit {inHex : Bool} {d : Char} (h : Glyph.isDigit inHex d = true) :
    isReferenceChar d = true := by
  rw [isReferenceChar_iff]
  cases inHex with
  | false => exact .inl (.inr h)
  | true =>
    have hdigit : isHexDigit d = true := h
    simp only [isHexDigit, Bool.or_eq_true, Bool.and_eq_true, decide_eq_true_eq] at hdigit
    rcases hdigit with (hdigit | ⟨hlow, hhigh⟩) | ⟨hlow, hhigh⟩
    · exact .inl (.inr hdigit)
    · exact .inl (.inl (.inr ⟨hlow, Char.le_trans hhigh (by decide)⟩))
    · exact .inl (.inl (.inl ⟨hlow, Char.le_trans hhigh (by decide)⟩))

namespace Glyph

theorem exists_body {g : Glyph} (h : g.Valid) (href : g.isReference = true) :
    ∃ body, g.text = '&' :: (body ++ [';']) ∧ (∀ c ∈ body, isReferenceChar c = true) ∧
      referenced? body = some g.char := by
  cases g with
  | plain c => cases href
  | named name c =>
    have hall : ∀ e ∈ namedCharacters,
        (∀ c ∈ e.1, isReferenceChar c = true) ∧ referenced? e.1 = some e.2 := by decide
    exact ⟨name, rfl, hall (name, c) h⟩
  | numbered inHex digits =>
    obtain ⟨hne, hdigits, hscalar, hallowed⟩ := h
    have hnumber : number? (base inHex) digits = some (digitsValue (base inHex) digits) := by
      have hsmall : digitsValue (base inHex) digits < UInt32.size := by
        simp only [isScalar, Bool.or_eq_true, Bool.and_eq_true, decide_eq_true_eq] at hscalar
        simp only [UInt32.size]
        omega
      simp [number?, hne, hsmall]
    have hnumbered : referenced?.numbered? (base inHex) (isDigit inHex) digits =
        some (numbered inHex digits).char := by
      simp [referenced?.numbered?, List.all_eq_true.2 hdigits, hnumber, characterOf, hscalar,
        hallowed, char]
    refine ⟨'#' :: ((if inHex then ['x'] else []) ++ digits), by simp [text], ?_, ?_⟩
    · have hmark : ∀ c ∈ '#' :: (if inHex then ['x'] else []), isReferenceChar c = true := by
        cases inHex <;> decide
      intro c hc
      rw [← List.cons_append, List.mem_append] at hc
      exact hc.elim (hmark c) fun hc => isReferenceChar_of_isDigit (hdigits c hc)
    · cases inHex with
      | true => exact hnumbered
      | false =>
        cases digits with
        | nil => exact absurd rfl hne
        | cons d ds =>
          have hd : d ≠ 'x' := by
            rintro rfl
            exact absurd (hdigits _ List.mem_cons_self) (by decide)
          have hread : referenced? ('#' :: d :: ds) =
              referenced?.numbered? 10 Char.isDigit (d :: ds) := by
            simp [referenced?, hd]
          exact hread.trans hnumbered

end Glyph

theorem characters?_reference {name : Text} (hname : ';' ∉ name) (passed s : Text) :
    characters? (some passed) (name ++ ';' :: s) =
      (referenced? (passed ++ name)).bind fun c => (characters? none s).map (⟨c, true⟩ :: ·) := by
  induction name generalizing passed with
  | nil =>
    simp only [List.nil_append, List.append_nil, characters?, ↓reduceIte, Option.bind_eq_bind]
    cases characters? none s <;> simp [Option.bind]
  | cons c name ih =>
    rw [List.mem_cons, not_or] at hname
    rw [List.cons_append, characters?, if_neg (Ne.symm hname.1), ih hname.2, List.append_assoc]
    rfl

namespace Glyph

theorem characters?_text {g : Glyph} (h : g.Valid) (s : Text) :
    characters? none (g.text ++ s) = (characters? none s).map (g.written :: ·) := by
  by_cases href : g.isReference
  · obtain ⟨body, htext, hbody, hreferenced⟩ := exists_body h href
    have hend : ';' ∉ body := fun hmem => absurd (hbody _ hmem) (by decide)
    rw [htext, List.cons_append, characters?, if_pos rfl, List.append_assoc, List.singleton_append,
      characters?_reference hend, List.nil_append, hreferenced]
    simp [written, href]
  · cases g with
    | plain c => 
      obtain ⟨-, hc, -⟩ := h
      simp [text, characters?, hc, written, char, isReference]
    | named name c => exact absurd rfl href
    | numbered inHex digits => exact absurd rfl href

theorem range_of_mem_text {g : Glyph} (h : g.Valid) (href : g.isReference = true) {c : Char}
    (hc : c ∈ g.text) : c = '&' ∨ c = ';' ∨ isReferenceChar c = true := by
  obtain ⟨body, htext, hbody, -⟩ := exists_body h href
  rw [htext, List.mem_cons, List.mem_append, List.mem_singleton] at hc
  rcases hc with hc | hc | hc
  · exact .inl hc
  · exact .inr (.inr (hbody c hc))
  · exact .inr (.inl hc)

theorem isAllowed_of_mem_text {g : Glyph} (h : g.Valid) {c : Char} (hc : c ∈ g.text) :
    isAllowed c = true ∧ c ≠ '<' := by
  by_cases href : g.isReference
  · rcases range_of_mem_text h href hc with rfl | rfl | hc
    · decide
    · decide
    · have hrange := range_of_isReferenceChar hc
      have hlow : ¬ c.toNat < 0x20 := by omega
      refine ⟨?_, ?_⟩
      · have hne : ∀ d : Char, 0x80 ≤ d.toNat → c ≠ d := by
          rintro d hd rfl
          omega
        simp [isAllowed, hlow, hne '\uFFFE' (by decide), hne '\uFFFF' (by decide)]
      · rintro rfl
        revert hrange
        decide
  · cases g with
    | plain d =>
      obtain ⟨hallowed, -, hd⟩ := h
      obtain rfl := List.mem_singleton.1 hc
      exact ⟨hallowed, hd⟩
    | named name d => exact absurd rfl href
    | numbered inHex digits => exact absurd rfl href

theorem eq_plain_of_mem_text {g : Glyph} (h : g.Valid) {q : Char} (hq : q = '"' ∨ q = '\'')
    (hmem : q ∈ g.text) : g = plain q := by
  by_cases href : g.isReference
  · rcases range_of_mem_text h href hmem with rfl | rfl | hc
    · exact absurd hq (by decide)
    · exact absurd hq (by decide)
    · rcases hq with rfl | rfl <;> exact absurd hc (by decide)
  · cases g with
    | plain d => rw [List.mem_singleton.1 hmem]
    | named name d => exact absurd rfl href
    | numbered inHex digits => exact absurd rfl href

def texts (gs : List Glyph) : Text := gs.flatMap text

def chars (gs : List Glyph) : Text := gs.map char

@[simp] theorem texts_nil : texts [] = [] := rfl

@[simp] theorem texts_cons (g : Glyph) (gs : List Glyph) : texts (g :: gs) = g.text ++ texts gs :=
  rfl

@[simp] theorem chars_nil : chars [] = [] := rfl

@[simp] theorem chars_cons (g : Glyph) (gs : List Glyph) : chars (g :: gs) = g.char :: chars gs :=
  rfl

theorem texts_map_plain (s : Text) : texts (s.map plain) = s := by
  induction s with
  | nil => rfl
  | cons c s ih => rw [List.map_cons, texts_cons, ih, text, List.singleton_append]

theorem chars_map_plain (s : Text) : chars (s.map plain) = s := by
  induction s with
  | nil => rfl
  | cons c s ih => rw [List.map_cons, chars_cons, ih, char]

theorem texts_ne_nil {gs : List Glyph} (h : gs ≠ []) : texts gs ≠ [] := by
  obtain ⟨g, gs, rfl⟩ := List.exists_cons_of_ne_nil h
  exact List.append_ne_nil_of_left_ne_nil g.text_ne_nil _

theorem isAllowed_of_mem_texts {gs : List Glyph} (h : ∀ g ∈ gs, g.Valid) {c : Char}
    (hc : c ∈ texts gs) : isAllowed c = true ∧ c ≠ '<' := by
  obtain ⟨g, hg, hc⟩ := List.mem_flatMap.1 hc
  exact isAllowed_of_mem_text (h g hg) hc

end Glyph

open Glyph

theorem characters?_texts {gs : List Glyph} (h : ∀ g ∈ gs, g.Valid) :
    characters? none (texts gs) = some (gs.map written) := by
  induction gs with
  | nil => rfl
  | cons g gs ih =>
    obtain ⟨hg, hgs⟩ := List.forall_mem_cons.1 h
    rw [texts_cons, characters?_text hg, ih hgs]
    rfl

/-- No space but a blank is written plainly, as it would be read as one. -/
def Glyph.KeptInAttribute : Glyph → Prop
  | plain c => isSpace c = true → c = ' '
  | _ => True

instance : DecidablePred Glyph.KeptInAttribute
  | plain _ => inferInstanceAs (Decidable (_ → _))
  | named _ _ => .isTrue trivial
  | numbered _ _ => .isTrue trivial

/-- No return is written plainly, as it would be read as a line feed. -/
def Glyph.KeptInData (g : Glyph) : Prop := g ≠ plain '\r'

instance : DecidablePred Glyph.KeptInData := fun g => inferInstanceAs (Decidable (g ≠ _))

theorem attributeText_written {gs : List Glyph} (h : ∀ g ∈ gs, g.KeptInAttribute) :
    attributeText (gs.map written) = chars gs := by
  induction gs with
  | nil => rfl
  | cons g gs ih =>
    obtain ⟨hg, hgs⟩ := List.forall_mem_cons.1 h
    have hrest := ih hgs
    cases g with
    | plain c =>
      have hreturn : c ≠ '\r' := by
        rintro rfl
        exact absurd (hg (by decide)) (by decide)
      have hspace : (if isSpace c then ' ' else c) = c := by
        split
        · rename_i hc
          exact (hg hc).symm
        · rfl
      simp [written, char, isReference, attributeText, hreturn, hspace, hrest]
    | named name c => simp [written, char, isReference, attributeText, hrest]
    | numbered inHex digits => simp [written, char, isReference, attributeText, hrest]

theorem addToLine_of_ne {backwards : Text} {c : Char} (hback : backwards.head? ≠ some '\r')
    (hc : c ≠ '\r') (isLast : Bool) : addToLine backwards c isLast = c :: backwards := by
  cases backwards with
  | nil => simp [addToLine, hc]
  | cons b rest =>
    have hb : b ≠ '\r' := fun hb => hback (congrArg some hb)
    simp [addToLine, hb, hc]

theorem dataText_written_from {gs : List Glyph} (h : ∀ g ∈ gs, g.KeptInData) (backwards : Text)
    (asIs : Bool) (hback : asIs = false → backwards.head? ≠ some '\r') :
    dataText backwards asIs (gs.map written) = backwards.reverse ++ chars gs := by
  induction gs generalizing backwards asIs with
  | nil => simp [dataText]
  | cons g gs ih =>
    obtain ⟨hg, hgs⟩ := List.forall_mem_cons.1 h
    have hstep : ∀ (c : Char) (isReference : Bool), (isReference = false → c ≠ '\r') →
        dataText (c :: backwards) isReference (gs.map written) =
          backwards.reverse ++ c :: chars gs := by
      intro c isReference hc
      rw [ih hgs (c :: backwards) isReference fun h hhead => hc h (Option.some.inj hhead)]
      simp
    cases g with
    | plain c =>
      have hc : c ≠ '\r' := fun hc => hg (congrArg plain hc)
      have hadded : (if asIs then c :: backwards
          else addToLine backwards c (gs.map written).isEmpty) = c :: backwards := by
        cases asIs with
        | true => rfl
        | false => exact addToLine_of_ne (hback rfl) hc _
      rw [List.map_cons, written, isReference, char, dataText, hadded]
      exact hstep c false fun _ => hc
    | named name c => exact hstep c true nofun
    | numbered inHex digits => exact hstep _ true nofun

theorem dataText_written {gs : List Glyph} (h : ∀ g ∈ gs, g.KeptInData) :
    dataText [] false (gs.map written) = chars gs :=
  dataText_written_from h [] false nofun

end SchemaDiagram.Xml
