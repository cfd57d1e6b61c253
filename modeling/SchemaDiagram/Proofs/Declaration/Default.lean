import SchemaDiagram.Proofs.Declaration.Head
import SchemaDiagram.Proofs.Declaration.Search

/-!
The default of a printed declaration. The word `DEFAULT` opens a clause of its own, and it also
stands in `SET DEFAULT` and in `BY DEFAULT`; what follows the first one is taken for the value,
whichever clause it belongs to (`default?_text`).
-/

set_option autoImplicit false

namespace SchemaDiagram.Declaration
open Sql Unicode Text

section
variable {w : Text} (hw : IsCapital w) (ws : List Text)
include hw

theorem silent_clause?_of_solid {s : Text} (hs : ∀ c ∈ s, isBlank c = false) {m : Char}
    (hm : m ∈ Script.marks) (hsolid : isBlank m = false) (rest : Text) (before : Option Char) :
    Silent (clause? (w :: ws)) (m :: rest) before s := by
  have hends : endsWord (m :: rest) = true := by simp [endsWord, Script.isWordChar_mark hm]
  induction s generalizing before with
  | nil => trivial
  | cons c s ih =>
    refine ⟨fun _ => ?_, ih (fun d hd => hs d (List.mem_cons_of_mem c hd)) _⟩
    rw [clause?, keyword?_append hw.2 hends]
    cases hr : keyword? w (c :: s) with
    | none => rfl
    | some r =>
      have hnone : blanks? (r ++ m :: rest) = none := by
        cases r with
        | nil => simp [blanks?, hsolid]
        | cons d r => simp [blanks?, hs d ((keyword?_suffix hr).1.mem List.mem_cons_self)]
      simp [hnone]

theorem silent_clause?_part (p : Part) {m : Char} (hm : m ∈ Script.marks)
    (hsolid : isBlank m = false) (rest : Text) (before : Option Char) :
    Silent (clause? (w :: ws)) (m :: rest) before (Quoting.mask p.text) := by
  have hends : endsWord (m :: rest) = true := by simp [endsWord, Script.isWordChar_mark hm]
  cases p with
  | bare text h =>
    have hbare := Part.isBare h
    have hmask : Quoting.mask text = text :=
      Quoting.mask_of_not_quote fun c hc => (flat_of_isBare hbare c hc).1
    rw [Part.text, hmask]
    exact silent_clause?_of_solid hw ws hbare.solid hm hsolid rest before
  | quoted inside hne hquote =>
    have hgaps : ∀ c ∈ Quoting.mask (Part.quoted inside hne hquote).text, isWordChar c = false :=
      Part.mask_quoted_gaps hquote
    exact (lacks_of_gaps hw hgaps).silent hw (leads_clause? w ws) hends

theorem idle_clause?_target (t : TableName) (c : Part) :
    Idle (clause? (w :: ws)) (Quoting.mask (t.text ++ '(' :: (c.text ++ [')']))) := by
  intro before rest _
  rw [mask_target]
  have hmarks := fun q hq => @mark_of_mem_targetNames t c q hq
  generalize targetNames t c = l at hmarks
  induction l generalizing before with
  | nil => trivial
  | cons q l ih =>
    obtain ⟨p, m⟩ := q
    obtain ⟨⟨hm, -, hsolid⟩, hl⟩ := List.forall_mem_cons.1 hmarks
    have hsplit : markedNames (fun p => Quoting.mask p.text) ((p, m) :: l) =
        Quoting.mask p.text ++ ([m] ++ markedNames (fun p => Quoting.mask p.text) l) := by
      simp [markedNames]
    rw [hsplit, silent_append, silent_append]
    refine ⟨silent_clause?_part hw ws p hm hsolid _ _, ?_, ih _ hl⟩
    exact Silent.of_leads (leads_clause? w ws) (silent_of_gap hw (Script.isWordChar_mark hm))

end

/-- The piece behind the first `DEFAULT`. -/
def behindDefault? (k : Casing) : List Piece → Option Text
  | [] => none
  | .word .default :: ps => ps.head?.map (Piece.text k)
  | _ :: ps => behindDefault? k ps

/-- In front of the first `DEFAULT` stands no value, and no group that holds the word. -/
def OpensDefault : List Piece → Prop
  | [] => True
  | .word .default :: _ => True
  | .value _ :: _ => False
  | .group e :: ps => Lacks "DEFAULT" (Quoting.mask e.text) ∧ OpensDefault ps
  | _ :: ps => OpensDefault ps

theorem opensDefault_words (ws : List Keyword) {ps : List Piece} (h : OpensDefault ps) :
    OpensDefault (ws.map .word ++ ps) := by
  induction ws with
  | nil => exact h
  | cons w ws ih => cases w <;> first | exact ih | trivial

theorem opensDefault_pieces {ms : List Modifier}
    (h : ∀ e, .check e ∈ ms → Lacks "DEFAULT" (Quoting.mask e.text)) :
    OpensDefault (ms.flatMap Modifier.pieces) := by
  induction ms with
  | nil => trivial
  | cons m ms ih =>
    have hms := ih fun e he => h e (List.mem_cons_of_mem m he)
    rw [List.flatMap_cons]
    cases m with
    | primaryKey => exact hms
    | notNull => exact hms
    | unique => exact hms
    | default v => trivial
    | check e => exact ⟨h e List.mem_cons_self, hms⟩
    | references t c actions => exact opensDefault_words (actions.flatMap Action.words) hms
    | identity always => exact opensDefault_words _ hms

theorem Idle.map {α β : Type} {read : Text → Option α} {t : Text} (h : Idle read t) (f : α → β) :
    Idle (fun s => (read s).map f) t := by
  intro before rest hrest
  have hsilent := h before rest hrest
  clear h
  induction t generalizing before with
  | nil => trivial
  | cons c t ih =>
    refine ⟨fun hb => ?_, ih _ hsilent.2⟩
    simp only [hsilent.1 hb, Option.map_none]

/-- The search for `DEFAULT` passes all pieces, or those in front of the first one, and that is also
where the piece behind it is taken from. -/
def PassesTo (k : Casing) (ps : List Piece) : Prop :=
  (behindDefault? k ps = none ∧ ∀ p ∈ ps, Idle readDefault (Quoting.mask (p.text k))) ∨
    ∃ pre post, ps = pre ++ .word .default :: post ∧
      behindDefault? k ps = post.head?.map (Piece.text k) ∧
      ∀ p ∈ pre, Idle readDefault (Quoting.mask (p.text k))

theorem PassesTo.cons {k : Casing} {p : Piece} {ps : List Piece} (h : PassesTo k ps)
    (hp : Idle readDefault (Quoting.mask (p.text k)))
    (hbehind : behindDefault? k (p :: ps) = behindDefault? k ps) : PassesTo k (p :: ps) := by
  rcases h with ⟨hnone, hall⟩ | ⟨pre, post, rfl, hsome, hall⟩
  · exact .inl ⟨hbehind.trans hnone, List.forall_mem_cons.2 ⟨hp, hall⟩⟩
  · exact .inr ⟨p :: pre, post, rfl, hbehind.trans hsome, List.forall_mem_cons.2 ⟨hp, hall⟩⟩

theorem passesTo_of_opensDefault (k : Casing) {ps : List Piece} (h : OpensDefault ps) :
    PassesTo k ps := by
  induction ps with
  | nil => exact .inl ⟨rfl, List.forall_mem_nil _⟩
  | cons p ps ih =>
    cases p with
    | word w =>
      by_cases hw : w = .default
      · subst hw
        exact .inr ⟨[], ps, rfl, rfl, List.forall_mem_nil _⟩
      · have hlacks : Lacks "DEFAULT" (Quoting.mask (k.spell w.text)) := by
          rw [mask_word]
          exact lacks_of_word (k.plain_spell w.isCapital).isWordChar (k.keyword?_of_ne (Ne.symm hw))
        have hopens : OpensDefault ps := by cases w <;> first | exact h | exact absurd rfl hw
        have hbehind : behindDefault? k (.word w :: ps) = behindDefault? k ps := by
          cases w <;> first | rfl | exact absurd rfl hw
        exact (ih hopens).cons (idle_of_lacks isCapital_default leads_readDefault hlacks) hbehind
    | value v => exact absurd h id
    | group e =>
      have hlacks : Lacks "DEFAULT" (Quoting.mask ('(' :: (e.text ++ [')']))) := by
        rw [mask_group]
        exact lacks_group isCapital_default h.1
      exact (ih h.2).cons (idle_of_lacks isCapital_default leads_readDefault hlacks) rfl
    | target t c =>
      exact PassesTo.cons (ih h) ((idle_clause?_target isCapital_default [] t c).map _) rfl

theorem width_maskedPieces (k : Casing) (ps : List Piece) :
    width (maskedPieces k ps) = width (spacedPieces k ps) := by
  rw [← mask_pieces, Quoting.mask, Quoting.width_maskFrom]

section
variable (k : Casing) {pre : List Piece}
  (hpre : ∀ p ∈ pre, Idle readDefault (Quoting.mask (p.text k)))
include hpre

theorem defaultMark?_none : defaultMark? (maskedPieces k pre) = none := by
  refine search?_spaced_none isCapital_default leads_readDefault _ ?_
  simpa using hpre

theorem defaultMark?_last : defaultMark? (maskedPieces k (pre ++ [.word .default])) = none := by
  have htext : maskedPieces k (pre ++ [.word .default]) =
      maskedPieces k pre ++ ' ' :: (k.spell Keyword.default.text ++ []) := by
    simp [maskedPieces, spaced, Piece.text, mask_word]
  have hidle : ∀ t ∈ pre.map fun p => Quoting.mask (p.text k), Idle readDefault t := by
    simpa using hpre
  have hword := (k.plain_spell Keyword.default.isCapital).isWordChar
  have hread : readDefault (k.spell Keyword.default.text ++ []) = none := by
    have hself := k.keyword?_spell_self Keyword.default.isCapital.2 []
    simp only [readDefault, clause?, show ("DEFAULT" : Text) = Keyword.default.text from rfl, hself]
    rfl
  have hlast : Silent readDefault [] none
      (maskedPieces k pre ++ ([' '] ++ k.spell Keyword.default.text)) := by
    rw [silent_append, silent_append]
    refine ⟨silent_spaced isCapital_default leads_readDefault hidle rfl none, ?_, ?_⟩
    · exact Silent.of_leads leads_readDefault
        (silent_of_gap isCapital_default Script.isWordChar_space)
    · exact silent_of_word hword fun _ => hread
  rw [htext, List.append_nil]
  exact searchFrom?_of_silent hlast 0

theorem defaultMark?_first (p : Piece) (post : List Piece) :
    (defaultMark? (maskedPieces k (pre ++ .word .default :: p :: post))).map Found.stop =
      some (width (spacedPieces k pre ++ [' '] ++ (k.spell Keyword.default.text ++ [' ']))) := by
  have hidle : ∀ t ∈ pre.map fun p => Quoting.mask (p.text k), Idle readDefault t := by
    simpa using hpre
  obtain ⟨c, r, hmask, hblank⟩ := (p.isToken k).mask_head
  have hread : readDefault ((k.spell Keyword.default.text ++ [' ']) ++
      (Quoting.mask (p.text k) ++ maskedPieces k post)) =
      some ((), Quoting.mask (p.text k) ++ maskedPieces k post) := by
    have hself := k.keyword?_spell_self Keyword.default.isCapital.2
      (' ' :: (Quoting.mask (p.text k) ++ maskedPieces k post))
    have hblanks : blanks? (' ' :: (Quoting.mask (p.text k) ++ maskedPieces k post)) =
        some (Quoting.mask (p.text k) ++ maskedPieces k post) := by
      rw [hmask, blanks?, if_pos (by decide), List.cons_append, skipBlanks_solid hblank]
    simp only [readDefault, clause?, show ("DEFAULT" : Text) = Keyword.default.text from rfl,
      List.append_assoc, List.singleton_append, hself, Option.bind_eq_bind, Option.bind_some, hblanks]
    rfl
  have htext : maskedPieces k (pre ++ .word .default :: p :: post) =
      spaced (pre.map fun p => Quoting.mask (p.text k)) ++
        ' ' :: ((k.spell Keyword.default.text ++ [' ']) ++
          (Quoting.mask (p.text k) ++ maskedPieces k post)) := by
    simp [maskedPieces, spaced, Piece.text, mask_word]
  have hne : k.spell Keyword.default.text ++ [' '] ≠ [] :=
    List.append_ne_nil_of_right_ne_nil _ (List.cons_ne_nil ' ' [])
  have hwidth : width (spaced (pre.map fun p => Quoting.mask (p.text k))) =
      width (spacedPieces k pre) := width_maskedPieces k pre
  rw [defaultMark?_eq, htext,
    search?_spaced_first isCapital_default leads_readDefault hidle hne hread rfl]
  simp only [Option.map_some, width_append, hwidth]

theorem defaultValue?_first (p : Piece) (post : List Piece) :
    defaultValue? (spacedPieces k (pre ++ .word .default :: p :: post))
      (maskedPieces k (pre ++ .word .default :: p :: post)) = some (p.text k) := by
  obtain ⟨found, hfound, hstop⟩ := Option.map_eq_some_iff.1 (defaultMark?_first k hpre p post)
  have htoken := p.isToken k
  have htext : spacedPieces k (pre ++ .word .default :: p :: post) =
      (spacedPieces k pre ++ [' '] ++ (k.spell Keyword.default.text ++ [' '])) ++
        (p.text k ++ spacedPieces k post) := by
    simp [spacedPieces, spaced, Piece.text]
  have hvalue : value (p.text k ++ spacedPieces k post) = p.text k := htoken.value _
  simp only [defaultValue?, hfound, hstop, htext, dropBytes?_width_append, Option.bind_eq_bind,
    Option.bind_some, hvalue, List.isEmpty_eq_false_iff.2 htoken.nonempty]
  rfl

end

theorem defaultValue?_pieces (k : Casing) {ps : List Piece} (h : OpensDefault ps) :
    defaultValue? (spacedPieces k ps) (maskedPieces k ps) = behindDefault? k ps := by
  rcases passesTo_of_opensDefault k h with ⟨hnone, hall⟩ | ⟨pre, post, rfl, hsome, hall⟩
  · simp [defaultValue?, defaultMark?_none k hall, hnone]
  · cases post with
    | nil => simp [defaultValue?, defaultMark?_last k hall, hsome]
    | cons p post => rw [defaultValue?_first k hall, hsome, List.head?_cons, Option.map_some]

/-- Of all clauses that hold the word `DEFAULT` the first one gives the value, and the value is the
piece behind the word; where that word ends the declaration, or stands nowhere, there is none. -/
theorem default?_text (k : Casing) (d : Declaration)
    (h : ∀ e, .check e ∈ d.modifiers → Lacks "DEFAULT" (Quoting.mask e.text)) :
    (ColumnDeclaration.ofFragment? (d.text k)).map (·.column.default?) =
      some (behindDefault? k d.pieces) := by
  have hvalue : defaultValue? (spacedPieces k d.pieces) (maskedPieces k d.pieces) =
      behindDefault? k d.pieces := defaultValue?_pieces k (opensDefault_pieces h)
  simp only [ColumnDeclaration.ofFragment?, trim_text, columnHead?_text, mask_pieces,
    Option.bind_eq_bind, Option.bind_some, hvalue]
  rfl

def Modifier.mentionsDefault : Modifier → Bool
  | references _ _ actions => actions.any (·.effect = .setDefault)
  | identity always => !always
  | _ => false

theorem behindDefault?_words (k : Casing) {ws : List Keyword} (h : .default ∉ ws)
    (ps : List Piece) : behindDefault? k (ws.map .word ++ ps) = behindDefault? k ps := by
  induction ws with
  | nil => rfl
  | cons w ws ih =>
    obtain ⟨hw, hws⟩ := not_or.1 (mt List.mem_cons.2 h)
    cases w <;> first | exact ih hws | exact absurd rfl hw

theorem Action.default_not_mem {a : Action} (h : a.effect ≠ .setDefault) :
    .default ∉ a.words := by
  obtain ⟨onDelete, effect⟩ := a
  cases onDelete <;> cases effect <;> first | decide | exact absurd rfl h

theorem behindDefault?_of_not_mentions (k : Casing) {ms : List Modifier}
    (h : ∀ m ∈ ms, m.mentionsDefault = false) :
    behindDefault? k (ms.flatMap Modifier.pieces) = ms.findSome? Modifier.default? := by
  induction ms with
  | nil => rfl
  | cons m ms ih =>
    obtain ⟨hm, hms⟩ := List.forall_mem_cons.1 h
    rw [List.flatMap_cons, List.findSome?_cons, ← ih hms]
    cases m with
    | primaryKey => rfl
    | notNull => rfl
    | unique => rfl
    | default v => rfl
    | check e => rfl
    | references t c actions =>
      have hactions : .default ∉ actions.flatMap Action.words := by
        intro hmem
        obtain ⟨a, ha, hword⟩ := List.mem_flatMap.1 hmem
        have heffect := List.any_eq_false.1 hm a ha
        exact Action.default_not_mem (by simpa using heffect) hword
      exact behindDefault?_words k hactions _
    | identity always =>
      cases always with
      | true => rfl
      | false => cases hm

def idName : Part := .bare "id" (by decide)

def idColumn (modifiers : List Modifier) : Declaration where
  name := idName
  plain := by decide
  dataType := ⟨.word "INT" (by decide), none, []⟩
  modifiers

def referenceWith (actions : List Action) : Modifier :=
  .references ⟨none, .bare "t" (by decide)⟩ (.bare "c" (by decide +kernel)) actions

theorem isToken_five : IsToken "5" := ⟨by decide, by decide, by decide, by decide⟩

theorem balanced_positive : Balanced "DEFAULT_id > 0" :=
  ⟨⟨by decide, by decide +kernel⟩, by decide +kernel⟩

/-- The word in names, in quotes and behind the default. -/
theorem default?_text_five :
    let d := idColumn [.check ⟨"DEFAULT_id > 0", balanced_positive⟩,
      .references ⟨some (.bare "DEFAULT" (by decide)),
        .quoted "t DEFAULT 1" (by decide) (by decide)⟩ (.bare "DEFAULT" (by decide)) [],
      .default ⟨"5", isToken_five⟩, .identity false]
    d.text (fun _ => true) = ("id INT check (DEFAULT_id > 0) " ++
        "references DEFAULT.\"t DEFAULT 1\"(DEFAULT) default 5 " ++
        "generated by default as identity" : String).toList ∧
      (ColumnDeclaration.ofFragment? (d.text fun _ => true)).map (·.column.default?) =
        some (some ("5" : Text)) := by
  intro d
  refine ⟨?_, (default?_text (fun _ => true) d ?_).trans rfl⟩
  · -- The literals are taken for the lists they come from: the kernel decodes long strings slowly.
    rw [String.toList_append, String.toList_append, String.toList_ofList, String.toList_ofList,
      String.toList_ofList]
    decide +kernel
  · intro e he
    simp only [d, idColumn, List.mem_cons, List.not_mem_nil, reduceCtorEq, Modifier.check.injEq,
      or_false] at he
    subst he
    decide +kernel

/-- No default is declared, and yet `AS`, `ON` or `NOT` is read for one; nor does a default count that
is declared behind such a clause. -/
theorem default?_of_other_clauses :
    let read (ms : List Modifier) : Text × Option (Option Text) :=
      ((idColumn ms).text fun _ => false,
        (ColumnDeclaration.ofFragment? ((idColumn ms).text fun _ => false)).map (·.column.default?))
    read [.identity false] =
        (("id INT GENERATED BY DEFAULT AS IDENTITY" : Text), some (some ("AS" : Text))) ∧
      read [.identity false, .default ⟨"5", isToken_five⟩] =
        (("id INT GENERATED BY DEFAULT AS IDENTITY DEFAULT 5" : Text), some (some ("AS" : Text))) ∧
      read [referenceWith [⟨true, .setDefault⟩, ⟨false, .cascade⟩]] =
        (("id INT REFERENCES t(c) ON DELETE SET DEFAULT ON UPDATE CASCADE" : Text),
          some (some ("ON" : Text))) ∧
      read [referenceWith [⟨true, .setDefault⟩], .notNull] =
        (("id INT REFERENCES t(c) ON DELETE SET DEFAULT NOT NULL" : Text),
          some (some ("NOT" : Text))) := by
  decide +kernel

end SchemaDiagram.Declaration
