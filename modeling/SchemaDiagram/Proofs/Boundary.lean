import SchemaDiagram.Proofs.Pieces
import SchemaDiagram.Sql.Statement

/-!
Where a reader that begins with a word finds nothing. Places inside a word are no places to begin,
and at the beginning of another word the reader fails, so a search goes on behind such a text as
if it had begun there (`searchFrom?_silent`, `occurrencesAfter_silent`).
-/

set_option autoImplicit false

namespace SchemaDiagram.Sql
open Unicode

theorem of_ascii {P : Char → Prop} [DecidablePred P] (h : ∀ n < 128, P (Char.ofNat n)) {c : Char}
    (hc : c.toNat < 128) : P c := by
  have := h c.toNat hc
  rwa [Char.ofNat_toNat] at this

theorem of_isBlank {P : Char → Prop} [DecidablePred P]
    (h : ∀ r ∈ blanks, ∀ k < r.2 + 1 - r.1, P (Char.ofNat (r.1 + k))) {c : Char}
    (hc : isBlank c = true) : P c := by
  obtain ⟨r, hr, hlo, hhi⟩ := Ranges.exists_of_has hc
  have := h r hr (c.toNat - r.1) (by omega)
  rwa [Nat.add_sub_cancel' hlo, Char.ofNat_toNat] at this

theorem isWordChar_of_isBlank {c : Char} (h : isBlank c = true) : isWordChar c = false :=
  of_isBlank (P := fun c => isWordChar c = false) (by decide +kernel) h

theorem isWordChar_of_spells {k c : Char} (hk : k.isUpper = true) (h : spells k c = true) :
    isWordChar c = true := by
  have hascii : k.toNat < 128 := by
    have hcapital : k.val ≥ 'A'.val ∧ k.val ≤ 'Z'.val := of_decide_eq_true hk
    have hle := UInt32.le_iff_toNat_le.1 hcapital.2
    have hz : 'Z'.val.toNat = 90 := rfl
    simp only [Char.toNat]
    omega
  have hcap : k.isUpper = true → isWordChar k = true ∧ isWordChar k.toLower = true :=
    of_ascii (P := fun k => k.isUpper = true → isWordChar k = true ∧ isWordChar k.toLower = true)
      (by decide +kernel) hascii
  simp only [spells, Bool.or_eq_true, Bool.and_eq_true, decide_eq_true_eq] at h
  rcases h with ((rfl | rfl) | ⟨-, rfl⟩) | ⟨-, rfl⟩
  · exact (hcap hk).1
  · exact (hcap hk).2
  · decide +kernel
  · decide +kernel

theorem spells_of_not_isWordChar {k c : Char} (hk : k.isUpper = true) (hc : isWordChar c = false) :
    spells k c = false := by
  cases h : spells k c with
  | false => rfl
  | true => exact absurd (isWordChar_of_spells hk h) (by simp [hc])

/-- What is read begins with the word, and the word ends there. -/
def Leads {β : Type} (w : Text) (read : Text → Option β) : Prop :=
  ∀ s, read s ≠ none → wholePhrase? [w] s ≠ none

theorem wholePhrase?_ne_none_iff {w s : Text} :
    wholePhrase? [w] s ≠ none ↔ ∃ r, keyword? w s = some r ∧ endsWord r = true := by
  simp only [wholePhrase?, phrase?, Option.bind_eq_bind, ne_eq]
  cases hr : keyword? w s with
  | none => simp
  | some r => cases he : endsWord r <;> simp [he]

theorem endsWord_of_blanks? {s r : Text} (h : blanks? s = some r) : endsWord s = true := by
  cases s with
  | nil => rfl
  | cons c s =>
    simp only [blanks?] at h
    split at h
    · rename_i hc
      simp [endsWord, isWordChar_of_isBlank hc]
    · cases h

theorem leads_clause? (w : Text) (ws : List Text) : Leads w (clause? (w :: ws)) := by
  intro s h
  obtain ⟨r, hr⟩ := Option.ne_none_iff_exists'.1 h
  simp only [clause?, Option.bind_eq_bind, Option.bind_eq_some_iff] at hr
  obtain ⟨t, ht, u, hu, -⟩ := hr
  exact wholePhrase?_ne_none_iff.2 ⟨t, ht, endsWord_of_blanks? hu⟩

theorem leads_wholePhrase? (w : Text) (ws : List Text) : Leads w (wholePhrase? (w :: ws)) := by
  cases ws with
  | nil => exact fun s h => h
  | cons v ws =>
    intro s h
    obtain ⟨r, hr⟩ := Option.ne_none_iff_exists'.1 h
    simp only [wholePhrase?, phrase?, Option.bind_eq_bind, Option.bind_eq_some_iff] at hr
    obtain ⟨-, ⟨t, ht, u, hu, -⟩, -⟩ := hr
    exact wholePhrase?_ne_none_iff.2 ⟨t, ht, endsWord_of_blanks? hu⟩

theorem Leads.bind {α β : Type} {w : Text} {read : Text → Option α} (h : Leads w read)
    (f : α → Option β) : Leads w fun s => (read s).bind f := by
  intro s hs
  refine h s ?_
  intro hnone
  exact hs (by simp [hnone])

theorem Leads.map {α β : Type} {w : Text} {read : Text → Option α} (h : Leads w read)
    (f : α → β) : Leads w fun s => (read s).map f := by
  intro s hs
  refine h s ?_
  intro hnone
  exact hs (by simp [hnone])

theorem Leads.eq_none {β : Type} {w : Text} {read : Text → Option β} (h : Leads w read) {s : Text}
    (hs : wholePhrase? [w] s = none) : read s = none := by
  cases hr : read s with
  | none => rfl
  | some b => exact absurd hs (h s (by simp [hr]))

theorem leads_tableHeader? : Leads "CREATE" tableHeader? := (leads_clause? "CREATE" []).bind _

theorem leads_indexHeader? : Leads "CREATE" indexHeader? :=
  (leads_clause? "CREATE" ["INDEX"]).bind _

/-- A word of capital letters, so that whatever spells it is made of word characters. -/
def IsCapital (w : Text) : Prop := w ≠ [] ∧ ∀ k ∈ w, k.isUpper = true

instance (w : Text) : Decidable (IsCapital w) := inferInstanceAs (Decidable (_ ∧ _))

theorem wholePhrase?_of_gap {w : Text} (hw : IsCapital w) {c : Char}
    (hc : isWordChar c = false) (s : Text) : wholePhrase? [w] (c :: s) = none := by
  obtain ⟨k, w, rfl⟩ := List.exists_cons_of_ne_nil hw.1
  have hk := spells_of_not_isWordChar (hw.2 k List.mem_cons_self) hc
  simp [wholePhrase?, phrase?, keyword?, hk]

theorem keyword?_self (w s : Text) : keyword? w (w ++ s) = some s := by
  induction w with
  | nil => rfl
  | cons k w ih => simp [keyword?, spells, ih]

/-- A word is read within what stands before the next boundary, or not at all. -/
theorem keyword?_append {w : Text} (hw : ∀ k ∈ w, k.isUpper = true) {rest : Text}
    (hrest : endsWord rest = true) (u : Text) :
    keyword? w (u ++ rest) = (keyword? w u).map (· ++ rest) := by
  induction w generalizing u with
  | nil => rfl
  | cons k w ih =>
    have hw' : ∀ l ∈ w, l.isUpper = true := fun l hl => hw l (List.mem_cons_of_mem k hl)
    cases u with
    | nil =>
      cases rest with
      | nil => rfl
      | cons c rest =>
        have hk : spells k c = false := by
          cases h : spells k c with
          | false => rfl
          | true =>
            have hc := isWordChar_of_spells (hw k List.mem_cons_self) h
            simp [endsWord, hc] at hrest
        simp [keyword?, hk]
    | cons c u =>
      rw [List.cons_append, keyword?, keyword?]
      split
      · exact ih hw' u
      · rfl

theorem keyword?_of_wholePhrase? {w u rest : Text} (hw : ∀ k ∈ w, k.isUpper = true)
    (hu : ∀ c ∈ u, isWordChar c = true) (hrest : endsWord rest = true)
    (h : wholePhrase? [w] (u ++ rest) ≠ none) : keyword? w u = some [] := by
  obtain ⟨r, hr, hend⟩ := wholePhrase?_ne_none_iff.1 h
  rw [keyword?_append hw hrest] at hr
  obtain ⟨v, hv, rfl⟩ := Option.map_eq_some_iff.1 hr
  cases v with
  | nil => exact hv
  | cons c v =>
    have hc := hu c ((keyword?_suffix hv).1.mem List.mem_cons_self)
    simp [endsWord, hc] at hend

def Lacks (w s : Text) : Prop :=
  ∀ u ∈ Text.splitAt (fun c => !isWordChar c) s, keyword? w u ≠ some []

instance (w s : Text) : Decidable (Lacks w s) := inferInstanceAs (Decidable (∀ _ ∈ _, _))

theorem isCapital_create : IsCapital "CREATE" := by decide

theorem lacks_nil {w : Text} (hw : IsCapital w) : Lacks w [] := by
  obtain ⟨k, w, rfl⟩ := List.exists_cons_of_ne_nil hw.1
  intro u hu
  have : u = [] := List.mem_singleton.1 hu
  simp [this, keyword?]

theorem lacks_append_cons {w : Text} {c : Char} (hc : isWordChar c = false) {s t : Text} :
    Lacks w (s ++ c :: t) ↔ Lacks w s ∧ Lacks w t := by
  unfold Lacks
  rw [Text.splitAt_append_cons (by simpa using hc)]
  simp only [List.mem_append, or_imp, forall_and]

theorem lacks_cons {w : Text} (hw : IsCapital w) {c : Char} (hc : isWordChar c = false) {t : Text} :
    Lacks w (c :: t) ↔ Lacks w t := by
  have := lacks_append_cons (w := w) hc (s := []) (t := t)
  simpa [lacks_nil hw] using this

theorem lacks_of_word {w s : Text} (hs : ∀ c ∈ s, isWordChar c = true)
    (h : keyword? w s ≠ some []) : Lacks w s := by
  intro u hu
  rw [Text.splitAt_of_none fun c hc => by simp [hs c hc]] at hu
  rw [List.mem_singleton.1 hu]
  exact h

theorem lacks_of_gaps {w s : Text} (hw : IsCapital w) (hs : ∀ c ∈ s, isWordChar c = false) :
    Lacks w s := by
  induction s with
  | nil => exact lacks_nil hw
  | cons c s ih =>
    rw [lacks_cons hw (hs c List.mem_cons_self)]
    exact ih fun d hd => hs d (List.mem_cons_of_mem c hd)

def lastOf : Option Char → Text → Option Char
  | before, [] => before
  | _, c :: s => lastOf (some c) s

@[simp] theorem lastOf_append (before : Option Char) (s t : Text) :
    lastOf before (s ++ t) = lastOf (lastOf before s) t := by
  induction s generalizing before with
  | nil => rfl
  | cons c s ih => exact ih (some c)

/-- Nothing is read at the word boundaries of a text in front of `rest`. -/
def Silent {β : Type} (read : Text → Option β) (rest : Text) : Option Char → Text → Prop
  | _, [] => True
  | before, c :: s =>
    (beginsWord before = true → read (c :: s ++ rest) = none) ∧ Silent read rest (some c) s

section
variable {β : Type} {read : Text → Option β} {rest : Text} {before : Option Char}

@[simp] theorem silent_append {s t : Text} :
    Silent read rest before (s ++ t) ↔
      Silent read (t ++ rest) before s ∧ Silent read rest (lastOf before s) t := by
  induction s generalizing before with
  | nil => simp [Silent, lastOf]
  | cons c s ih => simp [Silent, lastOf, ih, and_assoc]

theorem Silent.of_leads {w s : Text} (hread : Leads w read)
    (h : Silent (wholePhrase? [w]) rest before s) : Silent read rest before s := by
  induction s generalizing before with
  | nil => trivial
  | cons c s ih => exact ⟨fun hb => hread.eq_none (h.1 hb), ih h.2⟩

theorem wholePhrase?_of_splitAt {w : Text} (hw : IsCapital w) (hrest : endsWord rest = true)
    {s u : Text} {us : List Text} (hs : Text.splitAt (fun c => !isWordChar c) s = u :: us)
    (h : keyword? w u ≠ some []) : wholePhrase? [w] (s ++ rest) = none := by
  obtain ⟨r, hr, hword, hgap⟩ := Text.exists_of_splitAt hs
  have hends : endsWord (r ++ rest) = true := by
    cases r with
    | nil => exact hrest
    | cons d r => simpa [endsWord] using hgap d rfl
  have hall : ∀ d ∈ u, isWordChar d = true := by simpa using hword
  rw [hr, List.append_assoc]
  cases hread : wholePhrase? [w] (u ++ (r ++ rest)) with
  | none => rfl
  | some t => exact absurd (keyword?_of_wholePhrase? hw.2 hall hends (by simp [hread])) h

theorem silent_of_words {w : Text} (hw : IsCapital w) (hrest : endsWord rest = true) {s : Text}
    (h : ∀ u us, Text.splitAt (fun c => !isWordChar c) s = u :: us →
      (beginsWord before = true → keyword? w u ≠ some []) ∧ ∀ v ∈ us, keyword? w v ≠ some []) :
    Silent (wholePhrase? [w]) rest before s := by
  -- Along a word its piece gets shorter, and behind a gap the next piece comes first. The flag
  -- keeps what is left of a word from being taken for a word.
  induction s generalizing before with
  | nil => trivial
  | cons c s ih =>
    obtain ⟨v, vs, hsplit⟩ : ∃ v vs, Text.splitAt (fun c => !isWordChar c) s = v :: vs :=
      ⟨_, _, rfl⟩
    by_cases hc : isWordChar c = true
    · have hcons : Text.splitAt (fun c => !isWordChar c) (c :: s) = (c :: v) :: vs := by
        simp [Text.splitAt_cons, hc, hsplit]
      obtain ⟨hfirst, hothers⟩ := h _ _ hcons
      refine ⟨fun hb => wholePhrase?_of_splitAt hw hrest hcons (hfirst hb), ih ?_⟩
      intro u us hu
      rw [hsplit] at hu
      cases hu
      exact ⟨by simp [beginsWord, hc], hothers⟩
    · have hcons : Text.splitAt (fun c => !isWordChar c) (c :: s) = [] :: v :: vs := by
        simp [Text.splitAt_cons, hc, hsplit]
      obtain ⟨-, hothers⟩ := h _ _ hcons
      refine ⟨fun _ => wholePhrase?_of_gap hw (by simpa using hc) _, ih ?_⟩
      intro u us hu
      rw [hsplit] at hu
      cases hu
      exact ⟨fun _ => hothers v List.mem_cons_self,
        fun x hx => hothers x (List.mem_cons_of_mem v hx)⟩

theorem silent_of_gap {w : Text} (hw : IsCapital w) {c : Char} (hc : isWordChar c = false) :
    Silent (wholePhrase? [w]) rest before [c] :=
  ⟨fun _ => wholePhrase?_of_gap hw hc _, trivial⟩

theorem silent_of_word {s : Text} (hs : ∀ c ∈ s, isWordChar c = true)
    (h : beginsWord before = true → read (s ++ rest) = none) : Silent read rest before s := by
  induction s generalizing before with
  | nil => trivial
  | cons c s ih =>
    have hc := hs c List.mem_cons_self
    refine ⟨h, ih (fun d hd => hs d (List.mem_cons_of_mem c hd)) ?_⟩
    intro hbegins
    simp [beginsWord, hc] at hbegins

/-- A reader that begins with a word finds nothing where the word does not occur. -/
theorem Lacks.silent {w s : Text} (hw : IsCapital w) (h : Lacks w s) (hread : Leads w read)
    (hrest : endsWord rest = true) : Silent read rest before s := by
  refine Silent.of_leads hread (silent_of_words hw hrest ?_)
  intro u us hu
  refine ⟨fun _ => h u (by simp [hu]), fun v hv => h v (by simp [hu, hv])⟩

theorem Lacks.silent_gap {w s : Text} (hw : IsCapital w) (h : Lacks w s) (hread : Leads w read)
    {c : Char} (hc : isWordChar c = false) : Silent read rest before (s ++ [c]) := by
  have hends : endsWord ([c] ++ rest) = true := by simp [endsWord, hc]
  rw [silent_append]
  exact ⟨h.silent hw hread hends, Silent.of_leads hread (silent_of_gap hw hc)⟩

end

section
variable {α : Type} {read : Text → Option (α × Text)} {accept : Nat → Bool}

theorem searchFrom?_silent {s rest : Text} {before : Option Char} (h : Silent read rest before s)
    (offset : Nat) :
    searchFrom? read accept before 0 offset (s ++ rest) =
      searchFrom? read accept (lastOf before s) 0 (offset + Text.width s) rest := by
  induction s generalizing before offset with
  | nil => simp [lastOf, Text.width]
  | cons c s ih =>
    have hnone : (if beginsWord before = true then read (c :: (s ++ rest)) else none) = none := by
      split
      · rename_i hb
        exact h.1 hb
      · rfl
    rw [List.cons_append, searchFrom?, hnone]
    simp only [ih h.2, lastOf, Text.width, Nat.add_assoc]

theorem searchFrom?_of_silent {s : Text} {before : Option Char} (h : Silent read [] before s)
    (offset : Nat) : searchFrom? read accept before 0 offset s = none := by
  have hall := @searchFrom?_silent α read accept s [] before h offset
  rw [List.append_nil] at hall
  rw [hall, searchFrom?]

theorem searchFrom?_of_read {s : Text} {before : Option Char} (hb : beginsWord before = true)
    {v : α} {r : Text} (h : read s = some (v, r)) (hs : s ≠ []) {offset : Nat}
    (ha : accept offset = true) :
    searchFrom? read accept before 0 offset s =
      some ⟨offset, offset + (Text.width s - Text.width r), v⟩ := by
  cases s with
  | nil => exact absurd rfl hs
  | cons c s => simp [searchFrom?, hb, h, ha]

end

namespace StatementKind
variable {η α : Type} (kind : StatementKind η α)

theorem occurrencesAfter_silent {s rest : Text} {before : Option Char}
    (h : Silent kind.header? rest before s) :
    kind.occurrencesAfter before (s ++ rest) = kind.occurrencesAfter (lastOf before s) rest := by
  induction s generalizing before with
  | nil => rfl
  | cons c s ih =>
    have hnone : kind.headerAfter? before (c :: (s ++ rest)) = none := by
      unfold headerAfter?
      split
      · rename_i hb
        exact h.1 hb
      · rfl
    rw [List.cons_append, occurrencesAfter]
    split
    · exact ih h.2
    · rename_i hsome
      rw [hnone] at hsome
      cases hsome

theorem occurrencesAfter_of_header {s afterOpen inside rest : Text} {before : Option Char}
    {header : η} (hb : beginsWord before = true) (hs : kind.header? s = some (header, afterOpen))
    (hlist : kind.list? afterOpen = some (inside, rest)) :
    kind.occurrencesAfter before s =
      .complete (kind.content header inside) :: kind.occurrencesAfter (some ')') rest := by
  cases s with
  | nil =>
    have hlength := kind.header?_length hs
    cases hlength
  | cons c s =>
    have hheader : kind.headerAfter? before (c :: s) = some (header, afterOpen) := by
      rw [headerAfter?, if_pos hb, hs]
    rw [occurrencesAfter]
    split
    · rename_i hnone
      rw [hheader] at hnone
      cases hnone
    · rename_i header' after' hsome
      rw [hheader] at hsome
      cases hsome
      split
      · rename_i inside' rest' hfound
        rw [hlist] at hfound
        cases hfound
        rfl
      · rename_i hnone
        rw [hlist] at hnone
        cases hnone

section
variable {β : Type} {text : β → Text} {last : Char} {l : List β} {before : Option Char}

theorem occurrencesAfter_flatMap {content : β → α} (hlast : isWordChar last = false)
    (h : ∀ b ∈ l, ∀ before rest, beginsWord before = true →
      kind.occurrencesAfter before (text b ++ rest) =
        .complete (content b) :: kind.occurrencesAfter (some last) rest)
    (hb : beginsWord before = true) (rest : Text) :
    ∃ after, beginsWord after = true ∧ kind.occurrencesAfter before (l.flatMap text ++ rest) =
      l.map (fun b => .complete (content b)) ++ kind.occurrencesAfter after rest := by
  induction l generalizing before with
  | nil => exact ⟨before, hb, rfl⟩
  | cons b l ih =>
    have hbegins : beginsWord (some last) = true := by simp [beginsWord, hlast]
    obtain ⟨after, hafter, hrest⟩ := ih (fun c hc => h c (List.mem_cons_of_mem b hc))
      hbegins
    refine ⟨after, hafter, ?_⟩
    rw [List.flatMap_cons, List.append_assoc, h b List.mem_cons_self before _ hb, hrest]
    rfl

theorem occurrencesAfter_flatMap_silent (hlast : isWordChar last = false)
    (h : ∀ b ∈ l, ∀ before rest, Silent kind.header? rest before (text b) ∧
      lastOf before (text b) = some last)
    (hb : beginsWord before = true) (rest : Text) :
    ∃ after, beginsWord after = true ∧ kind.occurrencesAfter before (l.flatMap text ++ rest) =
      kind.occurrencesAfter after rest := by
  induction l generalizing before with
  | nil => exact ⟨before, hb, rfl⟩
  | cons b l ih =>
    have hbegins : beginsWord (some last) = true := by simp [beginsWord, hlast]
    obtain ⟨after, hafter, hrest⟩ := ih (fun c hc => h c (List.mem_cons_of_mem b hc))
      hbegins
    obtain ⟨hsilent, hbefore⟩ := h b List.mem_cons_self before (l.flatMap text ++ rest)
    refine ⟨after, hafter, ?_⟩
    rw [List.flatMap_cons, List.append_assoc, kind.occurrencesAfter_silent hsilent, hbefore, hrest]

end

end StatementKind

end SchemaDiagram.Sql
