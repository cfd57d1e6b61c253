import SchemaDiagram.Proofs.Declaration.Piece

set_option autoImplicit false

namespace SchemaDiagram.Declaration
open Sql Unicode Text

/-- Nothing is read within the text, if a word boundary follows. -/
def Idle {β : Type} (read : Text → Option β) (t : Text) : Prop :=
  ∀ before rest, endsWord rest = true → Silent read rest before t

theorem endsWord_spaced_append (ts : List Text) {rest : Text} (hrest : endsWord rest = true) :
    endsWord (spaced ts ++ rest) = true := by
  cases ts with
  | nil => exact hrest
  | cons t ts => exact endsWord_space _

section
variable {α : Type} {read : Text → Option (α × Text)} {w : Text}

theorem idle_of_lacks (hw : IsCapital w) (hread : Leads w read) {t : Text} (h : Lacks w t) :
    Idle read t :=
  fun _ _ hrest => h.silent hw hread hrest

theorem silent_spaced (hw : IsCapital w) (hread : Leads w read) {ts : List Text}
    (h : ∀ t ∈ ts, Idle read t) {rest : Text} (hrest : endsWord rest = true)
    (before : Option Char) : Silent read rest before (spaced ts) := by
  induction ts generalizing before with
  | nil => trivial
  | cons t ts ih =>
    obtain ⟨ht, hts⟩ := List.forall_mem_cons.1 h
    have hspaced : spaced (t :: ts) = ' ' :: (t ++ spaced ts) := rfl
    have hgap : read (' ' :: (t ++ spaced ts ++ rest)) = none :=
      hread.eq_none (wholePhrase?_of_gap hw Script.isWordChar_space _)
    rw [hspaced]
    refine ⟨fun _ => hgap, silent_append.2 ⟨?_, ih hts _⟩⟩
    exact ht _ _ (endsWord_spaced_append ts hrest)

theorem search?_spaced_none (hw : IsCapital w) (hread : Leads w read) (accept : Nat → Bool)
    {ts : List Text} (h : ∀ t ∈ ts, Idle read t) : search? read accept (spaced ts) = none :=
  searchFrom?_of_silent (silent_spaced hw hread h rfl none) 0

theorem search?_spaced_first (hw : IsCapital w) (hread : Leads w read) {accept : Nat → Bool}
    {pre : List Text} (hpre : ∀ t ∈ pre, Idle read t) {h : Text} (hne : h ≠ []) {v : α} {r : Text}
    (hr : read (h ++ r) = some (v, r)) (ha : accept (width (spaced pre ++ [' '])) = true) :
    search? read accept (spaced pre ++ ' ' :: (h ++ r)) =
      some ⟨width (spaced pre ++ [' ']), width (spaced pre ++ [' '] ++ h), v⟩ := by
  have htext : spaced pre ++ ' ' :: (h ++ r) = (spaced pre ++ [' ']) ++ (h ++ r) := by simp
  have hsilent : Silent read (h ++ r) none (spaced pre ++ [' ']) := by
    rw [silent_append]
    refine ⟨silent_spaced hw hread hpre (endsWord_space _) none, fun _ => ?_, trivial⟩
    exact hread.eq_none (wholePhrase?_of_gap hw Script.isWordChar_space _)
  have hbefore : beginsWord (lastOf none (spaced pre ++ [' '])) = true := by
    rw [lastOf_append]
    simp [lastOf, beginsWord]
  have hfound := searchFrom?_of_read hbefore hr (List.append_ne_nil_of_left_ne_nil hne r) ha
  rw [search?, htext, searchFrom?_silent hsilent, Nat.zero_add, hfound,
    width_append (spaced pre ++ [' ']), width_append h, Nat.add_sub_cancel]

end

def leads : List Keyword := [.primary, .not, .unique, .default, .check, .references]

/-- Outside quotes none of the first words of clauses stands in the text, and in quotes the word
`REFERENCES` does not stand either. -/
structure Inert (s : Text) : Prop where
  masked : ∀ w ∈ leads, Lacks w.text (Quoting.mask s)
  raw : Lacks "REFERENCES" s

instance (s : Text) : Decidable (Inert s) :=
  decidable_of_iff ((∀ w ∈ leads, Lacks w.text (Quoting.mask s)) ∧ Lacks "REFERENCES" s)
    ⟨fun h => ⟨h.1, h.2⟩, fun h => ⟨h.masked, h.raw⟩⟩

namespace Part

theorem maskFrom (p : Part) (b : Before) :
    (Quoting.outside b).maskFrom p.text = Quoting.mask p.text := by
  cases p with
  | bare text h =>
    have hflat : ∀ c ∈ text, Quoting.isQuote c = false :=
      fun c hc => (flat_of_isBare (isBare h) c hc).1
    exact (Quoting.maskFrom_outside hflat b).trans (Quoting.mask_of_not_quote hflat).symm
  | quoted inside hne hquote => rfl

theorem mask_quoted_gaps {inside : Text} (hquote : '"' ∉ inside) :
    ∀ c ∈ Quoting.mask ('"' :: (inside ++ ['"'])), isWordChar c = false := by
  have hmark : isWordChar '"' = false := Script.isWordChar_mark (by decide)
  have hopen : ∀ c ∈ (Quoting.plain '"').maskFrom (inside ++ ['"']), isWordChar c = false := by
    induction inside with
    | nil => simpa [Quoting.maskFrom, Quoting.step, Quoting.isOpen] using hmark
    | cons d s ih =>
      obtain ⟨hd, hs⟩ := not_or.1 (mt List.mem_cons.2 hquote)
      have hstep : (Quoting.plain '"').step d = .plain '"' := by simp [Quoting.step, Ne.symm hd]
      intro c hc
      rw [List.cons_append, Quoting.maskFrom, hstep] at hc
      rcases List.mem_append.1 hc with hc | hc
      · rw [List.eq_of_mem_replicate hc]
        exact Script.isWordChar_space
      · exact ih hs c hc
  exact List.forall_mem_cons.2 ⟨hmark, hopen⟩

theorem after (p : Part) (b : Before) : ∃ b', (Quoting.outside b).after p.text = .outside b' := by
  obtain ⟨b', hb'⟩ := p.inside.back b 0
  have hquoting := Nesting.quoting_foldl p.text ⟨.outside b, 0⟩
  rw [hb'] at hquoting
  exact ⟨b', hquoting.symm⟩

end Part

def targetNames (t : TableName) (c : Part) : List (Part × Char) :=
  t.schema?.toList.map (·, '.') ++ [(t.name, '('), (c, ')')]

def markedNames (f : Part → Text) (l : List (Part × Char)) : Text := l.flatMap fun q => f q.1 ++ [q.2]

theorem markedNames_cons (f : Part → Text) (p : Part) (m : Char) (l : List (Part × Char)) :
    markedNames f ((p, m) :: l) = f p ++ m :: markedNames f l := by
  simp [markedNames]

theorem target_text (t : TableName) (c : Part) :
    t.text ++ '(' :: (c.text ++ [')']) = markedNames Part.text (targetNames t c) := by
  obtain ⟨schema?, name⟩ := t
  cases schema? <;> simp [markedNames, targetNames, TableName.text]

theorem mark_of_mem_targetNames {t : TableName} {c : Part} {q : Part × Char}
    (hq : q ∈ targetNames t c) : q.2 ∈ Script.marks ∧ Quoting.isQuote q.2 = false ∧
      isBlank q.2 = false := by
  have hall : ∀ m ∈ ['.', '(', ')'], m ∈ Script.marks ∧ Quoting.isQuote m = false ∧
      isBlank m = false := by decide
  refine hall q.2 ?_
  rcases List.mem_append.1 hq with hq | hq
  · obtain ⟨p, -, rfl⟩ := List.mem_map.1 hq
    exact List.mem_cons_self
  · rcases List.mem_pair.1 hq with rfl | rfl
    · exact List.mem_cons_of_mem '.' List.mem_cons_self
    · exact List.mem_cons_of_mem '.' (List.mem_cons_of_mem '(' List.mem_cons_self)

theorem part_of_mem_targetNames {t : TableName} {c : Part} {q : Part × Char}
    (hq : q ∈ targetNames t c) : q.1 ∈ t.parts ++ [c] := by
  rcases List.mem_append.1 hq with hq | hq
  · obtain ⟨p, hp, rfl⟩ := List.mem_map.1 hq
    exact List.mem_append_left _ (List.mem_append_left _ hp)
  · rcases List.mem_pair.1 hq with rfl | rfl
    · simp [TableName.parts]
    · simp

theorem maskFrom_markedNames {l : List (Part × Char)}
    (hl : ∀ q ∈ l, Quoting.isQuote q.2 = false) (b : Before) :
    (Quoting.outside b).maskFrom (markedNames Part.text l) =
      markedNames (fun p => Quoting.mask p.text) l := by
  induction l generalizing b with
  | nil => rfl
  | cons q l ih =>
    obtain ⟨p, m⟩ := q
    obtain ⟨hm, hl⟩ := List.forall_mem_cons.1 hl
    obtain ⟨b', hb'⟩ := p.after b
    rw [markedNames_cons, markedNames_cons, Quoting.maskFrom_append, p.maskFrom, hb',
      Quoting.maskFrom, Quoting.step_outside hm, ih hl]
    rfl

theorem mask_target (t : TableName) (c : Part) :
    Quoting.mask (t.text ++ '(' :: (c.text ++ [')'])) =
      markedNames (fun p => Quoting.mask p.text) (targetNames t c) := by
  rw [target_text]
  exact maskFrom_markedNames (fun q hq => (mark_of_mem_targetNames hq).2.1) .gap

theorem lacks_markedNames {w : Text} (hw : IsCapital w) {f : Part → Text} {l : List (Part × Char)}
    (hl : ∀ q ∈ l, isWordChar q.2 = false ∧ Lacks w (f q.1)) : Lacks w (markedNames f l) := by
  induction l with
  | nil => exact lacks_nil hw
  | cons q l ih =>
    obtain ⟨p, m⟩ := q
    obtain ⟨⟨hm, hp⟩, hl⟩ := List.forall_mem_cons.1 hl
    rw [markedNames_cons, lacks_append_cons hm]
    exact ⟨hp, ih hl⟩

theorem mask_group (e : Expression) :
    Quoting.mask ('(' :: (e.text ++ [')'])) = '(' :: (Quoting.mask e.text ++ [')']) :=
  e.balanced.maskFrom .gap []

theorem lacks_group {w s : Text} (hw : IsCapital w) (hs : Lacks w s) :
    Lacks w ('(' :: (s ++ [')'])) := by
  have hopen : isWordChar '(' = false := Script.isWordChar_mark (by decide)
  have hclose : isWordChar ')' = false := Script.isWordChar_mark (by decide)
  rw [lacks_cons hw hopen, lacks_append_cons hclose]
  exact ⟨hs, lacks_nil hw⟩

/-- What the writer chose freely is inert, and no quoted name holds a point. -/
def Piece.Simple : Piece → Prop
  | word _ => True
  | value v => Inert v.text
  | group e => Inert e.text
  | target t c => ∀ p ∈ t.parts ++ [c], Inert p.text ∧ p.Plain

instance : ∀ p : Piece, Decidable p.Simple
  | .word _ => isTrue trivial
  | .value v => inferInstanceAs (Decidable (Inert v.text))
  | .group e => inferInstanceAs (Decidable (Inert e.text))
  | .target t c => inferInstanceAs (Decidable (∀ p ∈ t.parts ++ [c], Inert p.text ∧ p.Plain))

namespace Piece.Simple
variable {p : Piece} (hp : p.Simple) (k : Casing)
include hp

theorem lacks_masked {w : Keyword} (hw : w ∈ leads) (h : p ≠ .word w) :
    Lacks w.text (Quoting.mask (p.text k)) := by
  cases p with
  | word v =>
    have hv : w ≠ v := fun heq => h (heq ▸ rfl)
    rw [Piece.text, mask_word]
    exact lacks_of_word (k.plain_spell v.isCapital).isWordChar (k.keyword?_of_ne hv)
  | value v => exact hp.masked w hw
  | group e =>
    rw [Piece.text, mask_group]
    exact lacks_group w.isCapital (hp.masked w hw)
  | target t c =>
    rw [Piece.text, mask_target]
    refine lacks_markedNames w.isCapital fun q hq => ⟨?_, ?_⟩
    · exact Script.isWordChar_mark (mark_of_mem_targetNames hq).1
    · exact (hp q.1 (part_of_mem_targetNames hq)).1.masked w hw

theorem lacks_text (h : p ≠ .word .references) : Lacks "REFERENCES" (p.text k) := by
  cases p with
  | word v =>
    have hv : Keyword.references ≠ v := fun heq => h (heq ▸ rfl)
    exact lacks_of_word (k.plain_spell v.isCapital).isWordChar (k.keyword?_of_ne hv)
  | value v => exact hp.raw
  | group e => exact lacks_group isCapital_references hp.raw
  | target t c =>
    rw [Piece.text, target_text]
    refine lacks_markedNames isCapital_references fun q hq => ⟨?_, ?_⟩
    · exact Script.isWordChar_mark (mark_of_mem_targetNames hq).1
    · exact (hp q.1 (part_of_mem_targetNames hq)).1.raw

end Piece.Simple

end SchemaDiagram.Declaration
