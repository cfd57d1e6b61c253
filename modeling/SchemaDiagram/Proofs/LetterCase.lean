import Mathlib.Data.List.Infix
import SchemaDiagram.Proofs.Boundary
import SchemaDiagram.Unicode.Case

/-!
Letter case of whole texts. Small letters keep the blanks and signs of a text and make no new ones
(`mem_lower_iff`). A word in capitals may have come from letters beyond ASCII, the long s
among them, which is a small letter of its own (`lower_of_capitals?`).
-/

set_option autoImplicit false

namespace SchemaDiagram.Unicode

def isSign (c : Char) : Bool := isBlank c || ['(', ')', '[', ']', '"'].contains c

theorem exists_of_caseRun_find? {runs : List CaseRun} {m n : Nat}
    (h : CaseRun.find? runs n = some m) :
    ∃ r ∈ runs, ∃ k < r.last + 1 - r.first, m = r.small + k := by
  induction runs with
  | nil => cases h
  | cons r runs ih =>
    simp only [CaseRun.find?] at h
    split at h
    · cases h
    split at h
    · cases h
      exact ⟨r, List.mem_cons_self, n - r.first, by omega, rfl⟩
    · obtain ⟨q, hq, hm⟩ := ih h
      exact ⟨q, List.mem_cons_of_mem r hq, hm⟩

theorem smallForm_sign {c : Char} (h : isSign c = true) : smallForm c = [c] := by
  rcases Bool.or_eq_true_iff.1 h with hblank | hmark
  · exact Sql.of_isBlank (P := fun c => smallForm c = [c]) (by decide +kernel) hblank
  · have hall : ∀ c ∈ ['(', ')', '[', ']', '"'], smallForm c = [c] := by decide +kernel
    exact hall c (List.contains_iff_mem.1 hmark)

theorem toNat_ofNat (n : Nat) : (Char.ofNat n).toNat = n ∨ (Char.ofNat n).toNat = 0 := by
  by_cases h : n.isValidChar
  · left
    rw [Char.ofNat, dif_pos h]
    rfl
  · right
    rw [Char.ofNat, dif_neg h]
    rfl

theorem not_isSign_smallLetter {r : CaseRun} (hr : r ∈ smallLetters) {k : Nat}
    (hk : k < r.last + 1 - r.first) : isSign (Char.ofNat (r.small + k)) = false := by
  have hletters : ∀ r ∈ smallLetters, 0x5D < r.small ∧
      ∀ b ∈ blanks, r.small + (r.last - r.first) < b.1 ∨ b.2 < r.small := by decide +kernel
  obtain ⟨hmarks, hblanks⟩ := hletters r hr
  rw [Bool.eq_false_iff]
  intro hsign
  have hnat := toNat_ofNat (r.small + k)
  rcases Bool.or_eq_true_iff.1 hsign with hblank | hmark
  · obtain ⟨b, hb, hlo, hhi⟩ := Ranges.exists_of_has hblank
    have hpositive : ∀ b ∈ blanks, 0 < b.1 := by decide
    have hpos := hpositive b hb
    rcases hblanks b hb with hbelow | hbeyond <;> omega
  · have hrange : ∀ c ∈ ['(', ')', '[', ']', '"'], 0 < c.toNat ∧ c.toNat ≤ 0x5D := by decide
    have hbound := hrange _ (List.contains_iff_mem.1 hmark)
    omega

theorem not_isSign_smallForm {c : Char} (h : isSign c = false) :
    ∀ d ∈ smallForm c, isSign d = false := by
  unfold smallForm
  split
  · decide
  · split
    · rename_i n hn
      obtain ⟨r, hr, k, hk, rfl⟩ := exists_of_caseRun_find? hn
      exact List.forall_mem_singleton.2 (not_isSign_smallLetter hr hk)
    · exact List.forall_mem_singleton.2 h

theorem exists_lowerAfter_cons (before : List Char) (c : Char) (s : List Char) :
    ∃ u, lowerAfter before (c :: s) = u ++ lowerAfter (c :: before) s ∧
      (isSign c = true → u = [c]) ∧ (isSign c = false → ∀ d ∈ u, isSign d = false) := by
  refine ⟨_, rfl, fun hc => ?_, fun hc => ?_⟩
  · have hsigma : c ≠ 'Σ' := by
      rintro rfl
      exact absurd hc (by decide)
    rw [if_neg hsigma]
    exact smallForm_sign hc
  · split
    · split <;> decide
    · exact not_isSign_smallForm hc

theorem mem_lowerAfter_iff {d : Char} (hd : isSign d = true) (before s : List Char) :
    d ∈ lowerAfter before s ↔ d ∈ s := by
  induction s generalizing before with
  | nil => rfl
  | cons c s ih =>
    obtain ⟨u, hu, hsign, hother⟩ := exists_lowerAfter_cons before c s
    rw [hu, List.mem_append, ih, List.mem_cons]
    refine or_congr_left ?_
    cases hc : isSign c with
    | true => rw [hsign hc, List.mem_singleton]
    | false =>
      refine iff_of_false (fun hmem => ?_) (fun hsame => ?_)
      · rw [hother hc d hmem] at hd
        cases hd
      · rw [hsame, hc] at hd
        cases hd

theorem mem_lower_iff {d : Char} (hd : isSign d = true) (s : List Char) : d ∈ lower s ↔ d ∈ s :=
  mem_lowerAfter_iff hd [] s

/-- The letters beyond ASCII whose capital form is spelled in ASCII. -/
def foreignCapitals : List (Char × List Char) :=
  [('ß', ['S', 'S']), ('ı', ['I']), ('ſ', ['S']), ('ﬀ', ['F', 'F']), ('ﬁ', ['F', 'I']),
   ('ﬂ', ['F', 'L']), ('ﬃ', ['F', 'F', 'I']), ('ﬄ', ['F', 'F', 'L']), ('ﬅ', ['S', 'T']),
   ('ﬆ', ['S', 'T'])]

theorem capital?_cases {c : Char} {u : List Char} (h : capital? c = some u) :
    c.toNat < 128 ∧ u = [c.toUpper] ∨ (c, u) ∈ foreignCapitals := by
  unfold capital? at h
  split at h
  · rename_i hascii
    cases h
    exact .inl ⟨hascii, rfl⟩
  · right
    split at h <;> first | cases h; decide | cases h

theorem capitals?_cons {c : Char} {s w : List Char} (h : capitals? (c :: s) = some w) :
    ∃ u v, capital? c = some u ∧ capitals? s = some v ∧ w = u ++ v := by
  simp only [capitals?, Option.bind_eq_bind, Option.bind_eq_some_iff, Option.pure_def,
    Option.some.injEq] at h
  obtain ⟨u, hu, v, hv, rfl⟩ := h
  exact ⟨u, v, hu, hv, rfl⟩

def simpleCapital (c : Char) : Char := if c = 'ſ' then 'S' else c.toUpper

theorem eq_map_of_capitals? {s w : List Char} (h : capitals? s = some w)
    (hw : ∀ p ∈ foreignCapitals, p.2 <:+: w → p.1 = 'ſ') :
    (∀ c ∈ s, c.toNat < 128 ∨ c = 'ſ') ∧ w = s.map simpleCapital := by
  induction s generalizing w with
  | nil =>
    cases h
    exact ⟨List.forall_mem_nil _, rfl⟩
  | cons c s ih =>
    obtain ⟨u, v, hu, hv, rfl⟩ := capitals?_cons h
    obtain ⟨hs, rfl⟩ := ih hv fun p hp hwithin => hw p hp (hwithin.trans (List.suffix_append u v).isInfix)
    rcases capital?_cases hu with ⟨hascii, rfl⟩ | hforeign
    · have hlong : c ≠ 'ſ' := by
        rintro rfl
        exact absurd hascii (by decide)
      refine ⟨List.forall_mem_cons.2 ⟨.inl hascii, hs⟩, ?_⟩
      simp [simpleCapital, hlong]
    · have hlong : c = 'ſ' := hw _ hforeign (List.prefix_append u _).isInfix
      subst hlong
      cases hu
      exact ⟨List.forall_mem_cons.2 ⟨.inr rfl, hs⟩, rfl⟩

theorem lower_of_ascii {s : List Char} (h : ∀ c ∈ s, c.toNat < 128 ∨ c = 'ſ') :
    lower s = s.map Char.toLower := by
  have hsmall : ∀ c : Char, c.toNat < 128 ∨ c = 'ſ' → c ≠ 'Σ' ∧ smallForm c = [c.toLower] := by
    rintro c (hc | rfl)
    · exact Sql.of_ascii (P := fun c => c ≠ 'Σ' ∧ smallForm c = [c.toLower]) (by decide +kernel) hc
    · decide +kernel
  have hafter : ∀ before, lowerAfter before s = s.map Char.toLower := by
    induction s with
    | nil => exact fun _ => rfl
    | cons c s ih =>
      obtain ⟨hc, hs⟩ := List.forall_mem_cons.1 h
      obtain ⟨hsigma, hform⟩ := hsmall c hc
      intro before
      rw [lowerAfter, if_neg hsigma, hform, ih hs, List.map_cons, List.singleton_append]
  exact hafter []

theorem toLower_simpleCapital {c : Char} (h : c.toNat < 128) :
    (simpleCapital c).toLower = c.toLower := by
  exact Sql.of_ascii (P := fun c => (simpleCapital c).toLower = c.toLower) (by decide) h

/-- Small letters for a word in capitals, except where a long s stands for its letter. -/
theorem lower_of_capitals? {s w : List Char} (h : capitals? s = some w)
    (hw : ∀ p ∈ foreignCapitals, p.2 <:+: w → p.1 = 'ſ') (hlong : 'ſ' ∉ s) :
    lower s = w.map Char.toLower := by
  obtain ⟨hs, rfl⟩ := eq_map_of_capitals? h hw
  rw [lower_of_ascii hs, List.map_map]
  refine List.map_congr_left fun c hc => ?_
  have hascii := (hs c hc).resolve_right (ne_of_mem_of_not_mem hc hlong)
  exact (toLower_simpleCapital hascii).symm

end SchemaDiagram.Unicode
