import SchemaDiagram.Text.Basic

set_option autoImplicit false

namespace SchemaDiagram.Text
open Unicode

/-- What is said of the characters of a text is decided along the text. -/
instance (priority := 1100) decidableForallMem (s : Text) (p : Char → Prop) [DecidablePred p] :
    Decidable (∀ c ∈ s, p c) :=
  List.decidableBAll p s

section
variable {σ : Type} (step : σ → Char → σ) (stop : σ → Char → Bool)

/-- The scan does not stop at any character of the text. -/
def Quiet : σ → Text → Prop
  | _, [] => True
  | st, c :: s => stop st c = false ∧ Quiet (step st c) s

instance decidableQuiet : ∀ (st : σ) (s : Text), Decidable (Quiet step stop st s)
  | _, [] => isTrue trivial
  | st, c :: s =>
    have := decidableQuiet (step st c) s
    inferInstanceAs (Decidable (stop st c = false ∧ Quiet step stop (step st c) s))

variable {step stop}

@[simp] theorem quiet_append {st : σ} {s t : Text} :
    Quiet step stop st (s ++ t) ↔ Quiet step stop st s ∧ Quiet step stop (s.foldl step st) t := by
  induction s generalizing st with
  | nil => simp [Quiet]
  | cons c s ih => simp [Quiet, ih, and_assoc]

theorem Quiet.mono {other : σ → Char → Bool} (h : ∀ st c, other st c = true → stop st c = true)
    {st : σ} {s : Text} (hs : Quiet step stop st s) : Quiet step other st s := by
  induction s generalizing st with
  | nil => trivial
  | cons c s ih =>
    refine ⟨?_, ih hs.2⟩
    cases hc : other st c with
    | false => rfl
    | true => exact absurd (h st c hc) (by simp [hs.1])

theorem spanWith_of_quiet {st : σ} {s : Text} (h : Quiet step stop st s) (t : Text) :
    spanWith step stop st (s ++ t) =
      (s ++ (spanWith step stop (s.foldl step st) t).1,
        (spanWith step stop (s.foldl step st) t).2) := by
  induction s generalizing st with
  | nil => rfl
  | cons c s ih => simp [spanWith, h.1, ih h.2]

/-- What stands in front of the place where a scan stops is passed. -/
theorem quiet_of_spanWith {st : σ} {s inside rest : Text}
    (h : spanWith step stop st s = (inside, rest)) : Quiet step stop st inside := by
  induction s generalizing st inside with
  | nil =>
    cases h
    trivial
  | cons c s ih =>
    simp only [spanWith] at h
    split at h
    · cases h
      trivial
    · rename_i hc
      obtain ⟨rfl, hrest⟩ := Prod.mk.inj h
      exact ⟨by simpa using hc, ih (Prod.ext rfl hrest)⟩

theorem splitWith_of_quiet {st : σ} {s : Text} (h : Quiet step stop st s) (t : Text) :
    splitWith step stop st (s ++ t) =
      (s ++ (splitWith step stop (s.foldl step st) t).1,
        (splitWith step stop (s.foldl step st) t).2) := by
  induction s generalizing st with
  | nil => rfl
  | cons c s ih => simp [splitWith, h.1, ih h.2]

end

theorem splitAt_cons (p : Char → Bool) (c : Char) (s : Text) :
    splitAt p (c :: s) =
      if p c then [] :: splitAt p s
      else (splitAt p s).modifyHead (c :: ·) := by
  by_cases h : p c <;> simp [splitAt, splitWith, h]

theorem splitAt_of_none {p : Char → Bool} {s : Text} (h : ∀ c ∈ s, p c = false) :
    splitAt p s = [s] := by
  induction s with
  | nil => rfl
  | cons c s ih =>
    rw [splitAt_cons, ih fun d hd => h d (List.mem_cons_of_mem c hd)]
    simp [h c List.mem_cons_self]

theorem splitAt_append_cons {p : Char → Bool} {c : Char} (hc : p c = true) (s t : Text) :
    splitAt p (s ++ c :: t) = splitAt p s ++ splitAt p t := by
  induction s with
  | nil => simp [hc, splitAt, splitWith]
  | cons d s ih =>
    rw [List.cons_append, splitAt_cons, splitAt_cons, ih]
    by_cases hd : p d <;> simp [hd, splitAt]

theorem exists_of_splitAt {p : Char → Bool} {s u : Text} {us : List Text}
    (h : splitAt p s = u :: us) :
    ∃ r, s = u ++ r ∧ (∀ c ∈ u, p c = false) ∧ ∀ c, r.head? = some c → p c = true := by
  induction s generalizing u us with
  | nil =>
    cases h
    exact ⟨[], rfl, List.forall_mem_nil _, nofun⟩
  | cons d s ih =>
    rw [splitAt_cons] at h
    by_cases hd : p d = true
    · rw [if_pos hd] at h
      cases h
      exact ⟨d :: s, rfl, List.forall_mem_nil _, by simpa using hd⟩
    · obtain ⟨v, vs, hv⟩ : ∃ v vs, splitAt p s = v :: vs := ⟨_, _, rfl⟩
      obtain ⟨r, hs, hu, hr⟩ := ih hv
      rw [if_neg hd, hv, List.modifyHead_cons] at h
      cases h
      refine ⟨r, by rw [hs]; rfl, ?_, hr⟩
      intro c hc
      rcases List.mem_cons.1 hc with rfl | hc
      · simpa using hd
      · exact hu c hc

theorem join_cons (separator part : Text) {parts : List Text} (h : parts ≠ []) :
    join separator (part :: parts) = part ++ separator ++ join separator parts := by
  cases parts with
  | nil => exact absurd rfl h
  | cons q qs => simp [join, List.intercalate]

theorem exists_splitAt_append (p : Char → Bool) (s : Text) : ∃ (pieces : List Text) (last : Text),
    ∀ t : Text, (∀ c ∈ t, p c = false) → splitAt p (s ++ t) = pieces ++ [last ++ t] := by
  induction s with
  | nil => exact ⟨[], [], fun t ht => splitAt_of_none ht⟩
  | cons c s ih =>
    obtain ⟨pieces, last, hs⟩ := ih
    by_cases hc : p c = true
    · refine ⟨[] :: pieces, last, fun t ht => ?_⟩
      rw [List.cons_append, splitAt_cons, if_pos hc, hs t ht]
      rfl
    · cases pieces with
      | nil =>
        refine ⟨[], c :: last, fun t ht => ?_⟩
        rw [List.cons_append, splitAt_cons, if_neg hc, hs t ht]
        rfl
      | cons q pieces =>
        refine ⟨(c :: q) :: pieces, last, fun t ht => ?_⟩
        rw [List.cons_append, splitAt_cons, if_neg hc, hs t ht]
        rfl

theorem splitAt_join_mark {p : Char → Bool} {c : Char} (hc : p c = true) {parts : List Text}
    (hne : parts ≠ []) (h : ∀ q ∈ parts, ∀ d ∈ q, p d = false) :
    splitAt p (join [c] parts) = parts := by
  induction parts with
  | nil => exact absurd rfl hne
  | cons q qs ih =>
    obtain ⟨hq, hqs⟩ := List.forall_mem_cons.1 h
    cases qs with
    | nil =>
      rw [join, List.intercalate_singleton]
      exact splitAt_of_none hq
    | cons r rs =>
      rw [join_cons _ _ (List.cons_ne_nil r rs), List.append_assoc, List.singleton_append,
        splitAt_append_cons hc, splitAt_of_none hq, ih (List.cons_ne_nil r rs) hqs]
      rfl

/-- Every blank is a space that follows and precedes another character. The flag tells whether
the place follows a blank or the beginning. -/
def tidyFrom : Bool → Text → Bool
  | afterBlank, [] => !afterBlank
  | afterBlank, c :: s =>
    if isBlank c then c = ' ' && !afterBlank && tidyFrom true s else tidyFrom false s

/-- Begins and ends without a blank, with single spaces between. -/
def Tidy (s : Text) : Prop := ∀ (b : Bool) (t : Text), tidyFrom b (s ++ t) = tidyFrom false t

theorem tidy_of_solid {s : Text} (hne : s ≠ []) (h : ∀ c ∈ s, isBlank c = false) : Tidy s := by
  intro b t
  induction s generalizing b with
  | nil => exact absurd rfl hne
  | cons c s ih =>
    have hc := h c List.mem_cons_self
    cases s with
    | nil => simp [tidyFrom, hc]
    | cons d s =>
      have hrest := ih (by simp) (fun e he => h e (List.mem_cons_of_mem c he)) false
      simp only [List.cons_append, tidyFrom, hc, Bool.false_eq_true, if_false] at hrest ⊢
      exact hrest

theorem Tidy.append {s t : Text} (hs : Tidy s) (ht : Tidy t) : Tidy (s ++ t) := by
  intro b u
  rw [List.append_assoc, hs, ht]

theorem Tidy.space {s t : Text} (hs : Tidy s) (ht : Tidy t) : Tidy (s ++ ' ' :: t) := by
  intro b u
  have hblank : isBlank ' ' = true := by decide
  rw [List.append_assoc, hs, List.cons_append, tidyFrom, ht]
  simp [hblank]

theorem Tidy.tidyFrom {s : Text} (hs : Tidy s) : tidyFrom true s = true := by
  have := hs true []
  rwa [List.append_nil] at this

theorem splitWith_of_tidy {s : Text} {b : Bool} (h : tidyFrom b s = true) :
    let pieces := splitWith (fun st _ => st) (fun _ c => isBlank c) () s
    (∀ w ∈ pieces.2, w ≠ []) ∧ (b = true → pieces.1 ≠ []) ∧
      join [' '] (pieces.1 :: pieces.2) = s := by
  induction s generalizing b with
  | nil =>
    cases b with
    | true => simp [tidyFrom] at h
    | false => simp [splitWith, join]
  | cons c s ih =>
    by_cases hc : isBlank c = true
    · simp only [tidyFrom, hc, if_true, Bool.and_eq_true, decide_eq_true_eq] at h
      obtain ⟨⟨rfl, hb⟩, hs⟩ := h
      obtain ⟨hothers, hfirst, hjoin⟩ := ih hs
      simp only [splitWith, hc, if_true]
      refine ⟨?_, ?_, ?_⟩
      · intro w hw
        rcases List.mem_cons.1 hw with rfl | hw
        · exact hfirst rfl
        · exact hothers w hw
      · intro hb'
        simp [hb'] at hb
      · rw [join_cons _ _ (by simp), hjoin]
        rfl
    · simp only [tidyFrom, hc, Bool.false_eq_true, if_false] at h
      obtain ⟨hothers, -, hjoin⟩ := ih h
      simp only [splitWith, hc, Bool.false_eq_true, if_false]
      refine ⟨hothers, by simp, ?_⟩
      generalize hp : splitWith (fun st _ => st) (fun _ c => isBlank c) () s = pieces at hjoin
      obtain ⟨first, others⟩ := pieces
      cases others with
      | nil => simpa [join] using hjoin
      | cons q qs =>
        rw [join_cons _ _ (by simp)] at hjoin ⊢
        simpa using hjoin

theorem collapse_of_tidy {s : Text} (h : tidyFrom true s = true) : collapse s = s := by
  obtain ⟨hothers, hfirst, hjoin⟩ := splitWith_of_tidy h
  have hwords : words s = splitAt isBlank s := by
    refine List.filter_eq_self.2 ?_
    intro w hw
    rcases List.mem_cons.1 hw with rfl | hw
    · simpa using hfirst rfl
    · simpa using hothers w hw
  rw [collapse, hwords]
  exact hjoin

theorem dropWhile_blank_of_tidy {s : Text} (h : tidyFrom true s = true) :
    s.dropWhile isBlank = s := by
  cases s with
  | nil => rfl
  | cons c s =>
    by_cases hc : isBlank c = true
    · simp [tidyFrom, hc] at h
    · simp [hc]

theorem getLast_of_tidy {s : Text} {c : Char} {b : Bool} (h : tidyFrom b (s ++ [c]) = true) :
    isBlank c = false := by
  induction s generalizing b with
  | nil =>
    by_cases hc : isBlank c = true
    · simp [tidyFrom, hc] at h
    · simpa using hc
  | cons d s ih =>
    by_cases hd : isBlank d = true
    · simp only [List.cons_append, tidyFrom, hd, if_true, Bool.and_eq_true] at h
      exact ih h.2
    · simp only [List.cons_append, tidyFrom, hd, Bool.false_eq_true, if_false] at h
      exact ih h

theorem trim_of_tidy {s : Text} (h : tidyFrom true s = true) : trim s = s := by
  have hstart : trimStart s = s := dropWhile_blank_of_tidy h
  rw [trim, hstart]
  rcases List.eq_nil_or_concat s with rfl | ⟨t, c, rfl⟩
  · rfl
  · rw [List.concat_eq_append] at h ⊢
    have hc := getLast_of_tidy h
    simp [trimEnd, hc]

theorem trim_space (s : Text) : trim (' ' :: s) = trim s := rfl

end SchemaDiagram.Text
