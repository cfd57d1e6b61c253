import SchemaDiagram.Proofs.Dbml.Quoted
import SchemaDiagram.Proofs.LetterCase

/-!
What may be written for a default. A note says which of the few forms it has, and a number or a string
says the default itself (`ofText?_text`). Every default is written as one note, unless it is
the word `FALSE` with a long s in it (`existsUnique_defaultNote`).
-/

set_option autoImplicit false

namespace SchemaDiagram.Dbml
open Text Unicode

/-- The forms in which a default is written. -/
inductive DefaultNote where
  | now
  | truth (value : Bool)
  | number (digits : {s : Text // s ≠ [] ∧ ∀ c ∈ s, c.isDigit = true})
  | string (content : Text)
  deriving DecidableEq

namespace DefaultNote

def text : DefaultNote → Text
  | now => "`now()`"
  | truth true => "true"
  | truth false => "false"
  | number digits => digits.1
  | string content => quoted content

/-- The default that is written out, in digits or in quotes. -/
def value? : DefaultNote → Option Text
  | number digits => some digits.1
  | string content => some content
  | _ => none

def ofText? (t : Text) : Option DefaultNote :=
  if t = "`now()`" then some now
  else if t = "true" then some (truth true)
  else if t = "false" then some (truth false)
  else if h : t ≠ [] ∧ ∀ c ∈ t, c.isDigit = true then some (number ⟨t, h⟩)
  else (unquoted? t).map string

theorem isDigit_of_head? {t : Text} (h : t ≠ [] ∧ ∀ c ∈ t, c.isDigit = true) :
    (t.head?).any Char.isDigit = true := by
  obtain ⟨c, s, rfl⟩ := List.exists_cons_of_ne_nil h.1
  exact h.2 c List.mem_cons_self

theorem ofText?_text (n : DefaultNote) : ofText? n.text = some n := by
  cases n with
  | now => decide
  | truth value => cases value <;> decide
  | number digits =>
    have hdigit := isDigit_of_head? digits.2
    have hne : ∀ w : Text, (w.head?).any Char.isDigit = false → digits.1 ≠ w := by
      rintro w hw rfl
      rw [hw] at hdigit
      cases hdigit
    refine (if_neg (hne _ (by decide))).trans ?_
    refine (if_neg (hne _ (by decide))).trans ?_
    refine (if_neg (hne _ (by decide))).trans ?_
    exact dif_pos digits.2
  | string content =>
    have hne : ∀ w : Text, w.head? ≠ some '"' → quoted content ≠ w := by
      rintro w hw rfl
      exact hw rfl
    have hdigits : ¬ (quoted content ≠ [] ∧ ∀ c ∈ quoted content, c.isDigit = true) :=
      fun h => absurd (h.2 '"' List.mem_cons_self) (by decide)
    refine (if_neg (hne _ (by decide))).trans ?_
    refine (if_neg (hne _ (by decide))).trans ?_
    refine (if_neg (hne _ (by decide))).trans ?_
    refine (dif_neg hdigits).trans ?_
    exact congrArg (Option.map string) (unquoted?_eq_some_iff.2 rfl)

theorem text_injective : Function.Injective text := by
  intro n m h
  have hread := ofText?_text n
  rw [h, ofText?_text] at hread
  exact (Option.some.inj hread).symm

end DefaultNote

/-- The word `FALSE` with a long s. -/
def LongFalse (value : Text) : Prop := capitals? value = some ("FALSE" : Text) ∧ 'ſ' ∈ value

instance (value : Text) : Decidable (LongFalse value) := inferInstanceAs (Decidable (_ ∧ _))

theorem lower_true {value : Text} (h : capitals? value = some ("TRUE" : Text)) : lower value = "true" := by
  have hletters : ∀ p ∈ foreignCapitals, p.2 <:+: ("TRUE" : Text) → p.1 = 'ſ' := by decide
  have hlong : 'ſ' ∉ value := by
    intro hmem
    have hs := List.mem_map_of_mem (f := simpleCapital) hmem
    rw [← (eq_map_of_capitals? h hletters).2] at hs
    exact absurd hs (by decide)
  exact (lower_of_capitals? h hletters hlong).trans (by decide)

theorem falseLetters : ∀ p ∈ foreignCapitals, p.2 <:+: ("FALSE" : Text) → p.1 = 'ſ' := by decide

theorem lower_false {value : Text} (h : capitals? value = some ("FALSE" : Text)) (hlong : 'ſ' ∉ value) :
    lower value = "false" :=
  (lower_of_capitals? h falseLetters hlong).trans (by decide)

theorem lower_longFalse {value : Text} (h : LongFalse value) : lower value = "falſe" := by
  obtain ⟨hascii, hmap⟩ := eq_map_of_capitals? h.1 falseLetters
  have hspelled : value.map simpleCapital = ['F', 'A', 'L', 'S', 'E'] := hmap.symm.trans (by decide)
  obtain ⟨f, _, rfl, hf, hspelled⟩ := List.map_eq_cons_iff.1 hspelled
  obtain ⟨a, _, rfl, ha, hspelled⟩ := List.map_eq_cons_iff.1 hspelled
  obtain ⟨l, _, rfl, hl, hspelled⟩ := List.map_eq_cons_iff.1 hspelled
  obtain ⟨x, _, rfl, hx, hspelled⟩ := List.map_eq_cons_iff.1 hspelled
  obtain ⟨e, _, rfl, he, hspelled⟩ := List.map_eq_cons_iff.1 hspelled
  cases List.map_eq_nil_iff.1 hspelled
  -- Only the fourth letter can be the long one.
  have hletter : ∀ {c k : Char}, c ∈ [f, a, l, x, e] → simpleCapital c = k → k ≠ 'S' →
      c ≠ 'ſ' ∧ c.toLower = k.toLower := by
    rintro c k hc rfl hk
    have hne : c ≠ 'ſ' := by
      rintro rfl
      exact hk rfl
    exact ⟨hne, (toLower_simpleCapital ((hascii c hc).resolve_right hne)).symm⟩
  obtain ⟨hf', hf⟩ := hletter (by simp) hf (by decide)
  obtain ⟨ha', ha⟩ := hletter (by simp) ha (by decide)
  obtain ⟨hl', hl⟩ := hletter (by simp) hl (by decide)
  obtain ⟨he', he⟩ := hletter (by simp) he (by decide)
  have hlong : x = 'ſ' := by
    have hmem := h.2
    simp only [List.mem_cons, hf'.symm, ha'.symm, hl'.symm, he'.symm, List.not_mem_nil, false_or,
      or_false] at hmem
    exact hmem.symm
  rw [lower_of_ascii hascii]
  simp only [List.map_cons, List.map_nil, hf, ha, hl, he, hlong]
  decide

theorem capitals?_of_getD {value w : Text} (hw : w ≠ []) (h : (capitals? value).getD [] = w) :
    capitals? value = some w := by
  cases hcapitals : capitals? value with
  | none =>
    rw [hcapitals] at h
    exact absurd h.symm hw
  | some u => rw [← h, hcapitals, Option.getD_some]

theorem getD_of_longFalse {value : Text} (h : LongFalse value) :
    (capitals? value).getD [] = "FALSE" := by rw [h.1, Option.getD_some]

theorem defaultValue_longFalse {d : Text} (h : LongFalse (trim d)) : defaultValue d = "falſe" := by
  have hnow : ¬ (("FALSE" : Text) = "CURRENT_TIMESTAMP" ∨ ("FALSE" : Text) = "CURRENT_DATE" ∨
      ("FALSE" : Text) = "NOW()") := by decide
  simp only [defaultValue, getD_of_longFalse h, Bool.or_eq_true, decide_eq_true_eq, or_assoc]
  rw [if_neg hnow, if_pos (.inr trivial), lower_longFalse h]

theorem exists_note {d : Text} (h : ¬ LongFalse (trim d)) :
    ∃ n : DefaultNote, defaultValue d = n.text ∧ ∀ v ∈ n.value?, v = trim d := by
  simp only [defaultValue]
  split
  · exact ⟨.now, rfl, nofun⟩
  split
  · rename_i hword
    rcases Bool.or_eq_true_iff.1 hword with htrue | hfalse
    · have hcapitals := capitals?_of_getD (by decide) (of_decide_eq_true htrue)
      exact ⟨.truth true, lower_true hcapitals, nofun⟩
    · have hcapitals := capitals?_of_getD (by decide) (of_decide_eq_true hfalse)
      exact ⟨.truth false, lower_false hcapitals fun hlong => h ⟨hcapitals, hlong⟩, nofun⟩
  split
  · rename_i hdigits
    obtain ⟨hne, hall⟩ := Bool.and_eq_true_iff.1 hdigits
    have hdigits : trim d ≠ [] ∧ ∀ c ∈ trim d, c.isDigit = true :=
      ⟨by simpa using hne, List.all_eq_true.1 hall⟩
    exact ⟨.number ⟨trim d, hdigits⟩, rfl, fun v hv => (Option.some.inj hv).symm⟩
  · exact ⟨.string (trim d), rfl, fun v hv => (Option.some.inj hv).symm⟩

theorem text_ne_longFalse (n : DefaultNote) : n.text ≠ "falſe" := by
  have hnone : DefaultNote.ofText? "falſe" = none := by decide
  intro h
  rw [← h, n.ofText?_text] at hnone
  cases hnone

/-- A default is written in exactly one form, and a number or a string says it, so that no other
default is written like it. The exception is the word `FALSE` with a long s: it is taken for the truth
value, but its small form is none. -/
theorem existsUnique_defaultNote (d : Text) :
    ((∃! n : DefaultNote, defaultValue d = n.text) ↔ ¬ LongFalse (trim d)) ∧
    (LongFalse (trim d) → defaultValue d = "falſe") ∧
    ∀ n : DefaultNote, defaultValue d = n.text →
      DefaultNote.ofText? (defaultValue d) = some n ∧ (∀ v ∈ n.value?, v = trim d) ∧
      (n.value?.isSome → ∀ e, defaultValue e = defaultValue d → trim e = trim d) := by
  -- Where the text of a note is written, the note is the one that says the default.
  have hnote : ∀ {d : Text} {n : DefaultNote}, defaultValue d = n.text →
      ∀ v ∈ n.value?, v = trim d := by
    intro d n hn
    have hlong : ¬ LongFalse (trim d) := by
      intro hlong
      exact text_ne_longFalse n (hn.symm.trans (defaultValue_longFalse hlong))
    obtain ⟨m, hm, hvalue⟩ := exists_note hlong
    rwa [DefaultNote.text_injective (hn.symm.trans hm)]
  refine ⟨⟨?_, ?_⟩, defaultValue_longFalse, ?_⟩
  · rintro ⟨n, hn, -⟩ hlong
    exact text_ne_longFalse n (hn.symm.trans (defaultValue_longFalse hlong))
  · intro hlong
    obtain ⟨n, hn, -⟩ := exists_note hlong
    exact ⟨n, hn, fun m hm => DefaultNote.text_injective (hm.symm.trans hn)⟩
  · intro n hn
    refine ⟨hn ▸ n.ofText?_text, hnote hn, ?_⟩
    intro hsome e he
    obtain ⟨v, hv⟩ := Option.isSome_iff_exists.1 hsome
    rw [← hnote hn v hv, ← hnote (he.trans hn) v hv]

/-- Neither the truth value nor a string is written for the word with a long s. -/
theorem defaultValue_of_long_s :
    defaultValue "falſe" = "falſe" ∧ ∀ n : DefaultNote, defaultValue "falſe" ≠ n.text := by
  have hvalue : defaultValue "falſe" = "falſe" := by decide +kernel
  exact ⟨hvalue, fun n hn => text_ne_longFalse n (hn.symm.trans hvalue)⟩

end SchemaDiagram.Dbml
