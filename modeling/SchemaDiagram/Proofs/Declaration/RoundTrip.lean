import SchemaDiagram.Proofs.Declaration.Default

set_option autoImplicit false

namespace SchemaDiagram.Declaration
open Sql Unicode Text

namespace Modifier

def lead : Modifier → Keyword
  | primaryKey => .primary
  | notNull => .not
  | unique => .unique
  | default _ => .default
  | check _ => .check
  | references _ _ _ => .references
  | identity _ => .generated

/-- Nothing in the modifier begins another clause. -/
structure Simple (m : Modifier) : Prop where
  pieces : ∀ p ∈ m.pieces, p.Simple
  noDefault : m.mentionsDefault = false

instance (m : Modifier) : Decidable m.Simple :=
  decidable_of_iff ((∀ p ∈ m.pieces, p.Simple) ∧ m.mentionsDefault = false)
    ⟨fun h => ⟨h.1, h.2⟩, fun h => ⟨h.pieces, h.noDefault⟩⟩

theorem mem_words {ws : List Keyword} {w : Keyword} (h : Piece.word w ∈ ws.map .word) : w ∈ ws := by
  obtain ⟨v, hv, heq⟩ := List.mem_map.1 h
  cases heq
  exact hv

theorem lead_of_mem {m : Modifier} {w : Keyword} (hw : w ∈ leads) (hdefault : w ≠ .default)
    (h : .word w ∈ m.pieces) : w = m.lead := by
  have hreference : w ∈ leads → w ≠ .default → ∀ a : Action, w ∉ a.words := by
    rintro hw hdefault ⟨onDelete, effect⟩
    revert hw hdefault
    cases onDelete <;> cases effect <;> cases w <;> decide
  cases m with
  | primaryKey =>
    have hall : ∀ v ∈ leads, v ∈ [Keyword.primary, .key] → v = .primary := by decide
    exact hall w hw (mem_words h)
  | notNull =>
    have hall : ∀ v ∈ leads, v ∈ [Keyword.not, .null] → v = .not := by decide
    exact hall w hw (mem_words h)
  | unique =>
    have hmem : .word w ∈ [Keyword.unique].map Piece.word := h
    exact List.mem_singleton.1 (mem_words hmem)
  | default v =>
    rcases List.mem_pair.1 h with heq | heq
    · cases heq
      rfl
    · cases heq
  | check e =>
    rcases List.mem_pair.1 h with heq | heq
    · cases heq
      rfl
    · cases heq
  | references t c actions =>
    rcases List.mem_cons.1 h with heq | h
    · cases heq
      rfl
    rcases List.mem_cons.1 h with heq | h
    · cases heq
    · obtain ⟨a, -, ha⟩ := List.mem_flatMap.1 (mem_words h)
      exact absurd ha (hreference hw hdefault a)
  | identity always =>
    have hall : ∀ v ∈ leads, v ≠ .default →
        v ∉ Keyword.generated :: ((if always then [.always] else [.byWord, .default]) ++
          [.as, .identity]) := by
      cases always <;> decide
    exact absurd (mem_words h) (hall w hw hdefault)

end Modifier

section
variable (k : Casing) {w : Keyword} (hw : w ∈ leads) {ms : List Modifier}
  (hms : ∀ m ∈ ms, m.Simple)
include hms

theorem idle_masked (hw : w ∈ leads) (hdefault : w ≠ .default) (hlead : ∀ m ∈ ms, m.lead ≠ w)
    {α : Type} {read : Text → Option (α × Text)} (hread : Leads w.text read) :
    ∀ t ∈ (ms.flatMap Modifier.pieces).map fun p => Quoting.mask (p.text k), Idle read t := by
  intro t ht
  obtain ⟨p, hp, rfl⟩ := List.mem_map.1 ht
  obtain ⟨m, hm, hp⟩ := List.mem_flatMap.1 hp
  have hne : p ≠ .word w := by
    rintro rfl
    exact hlead m hm (Modifier.lead_of_mem hw hdefault hp).symm
  have hsimple : p.Simple := (hms m hm).pieces p hp
  exact idle_of_lacks w.isCapital hread (hsimple.lacks_masked k hw hne)

theorem idle_texts (hlead : ∀ m ∈ ms, m.lead ≠ .references) {α : Type}
    {read : Text → Option (α × Text)} (hread : Leads "REFERENCES" read) :
    ∀ t ∈ (ms.flatMap Modifier.pieces).map (Piece.text k), Idle read t := by
  intro t ht
  obtain ⟨p, hp, rfl⟩ := List.mem_map.1 ht
  obtain ⟨m, hm, hp⟩ := List.mem_flatMap.1 hp
  have hne : p ≠ .word .references := by
    rintro rfl
    exact hlead m hm (Modifier.lead_of_mem (by decide) (by decide) hp).symm
  have hsimple : p.Simple := (hms m hm).pieces p hp
  exact idle_of_lacks isCapital_references hread (hsimple.lacks_text k hne)

end

theorem phrase?_words (k : Casing) (w : Keyword) (ws : List Keyword) (rest : Text) :
    phrase? (w.text :: ws.map Keyword.text)
      (k.spell w.text ++ (spaced (ws.map fun v => k.spell v.text) ++ rest)) = some rest := by
  induction ws generalizing w with
  | nil => exact k.keyword?_spell_self w.isCapital.2 rest
  | cons v ws ih =>
    have hspaced : spaced ((v :: ws).map fun v => k.spell v.text) ++ rest =
        ' ' :: (k.spell v.text ++ (spaced (ws.map fun v => k.spell v.text) ++ rest)) := by
      simp [spaced]
    have hblanks := (k.plain_spell v.isCapital).blanks?
      (spaced (ws.map fun v => k.spell v.text) ++ rest)
    rw [hspaced, List.map_cons, phrase?, k.keyword?_spell_self w.isCapital.2]
    · simp only [Option.bind_eq_bind, Option.bind_some, hblanks]
      exact ih v
    · exact List.cons_ne_nil _ _

theorem maskedPieces_words (k : Casing) (ws : List Keyword) :
    maskedPieces k (ws.map .word) = spaced (ws.map fun v => k.spell v.text) := by
  rw [maskedPieces, List.map_map]
  refine congrArg spaced (List.map_congr_left fun v _ => mask_word k v)

theorem maskedPieces_append (k : Casing) (ps qs : List Piece) :
    maskedPieces k (ps ++ qs) = maskedPieces k ps ++ maskedPieces k qs := by
  simp [maskedPieces, spaced]

theorem hasPhrase_pieces (k : Casing) (w : Keyword) (ws : List Keyword) (m₀ : Modifier)
    (hw : w ∈ leads) (hdefault : w ≠ .default) (hpieces : m₀.pieces = (w :: ws).map .word)
    {p : Modifier → Bool} (hlead : ∀ m, p m = false → m.lead ≠ w) (hkind : ∀ m, p m = true → m = m₀)
    {ms : List Modifier} (hms : ∀ m ∈ ms, m.Simple) :
    hasPhrase (w.text :: ws.map Keyword.text) (maskedPieces k (ms.flatMap Modifier.pieces)) =
      ms.any p := by
  have hleads := (leads_wholePhrase? w.text (ws.map Keyword.text)).map fun rest => ((), rest)
  unfold hasPhrase find?
  cases hfind : ms.find? p with
  | none =>
    have hnone := List.find?_eq_none.1 hfind
    have hidle := idle_masked k hms hw hdefault
      (fun m hm => hlead m (by simpa using hnone m hm)) hleads
    have hany : ms.any p = false := by simpa using hnone
    rw [maskedPieces, search?_spaced_none w.isCapital hleads _ hidle, hany]
    rfl
  | some m =>
    obtain ⟨hm, pre, post, rfl, hpre⟩ := List.find?_eq_some_iff_append.1 hfind
    obtain rfl := hkind m hm
    have hsimple : ∀ n ∈ pre, n.Simple := fun n hn => hms n (List.mem_append_left _ hn)
    have hidle := idle_masked k hsimple hw hdefault
      (fun n hn => hlead n (by simpa using hpre n hn)) hleads
    have htext : maskedPieces k ((pre ++ m :: post).flatMap Modifier.pieces) =
        spaced ((pre.flatMap Modifier.pieces).map fun p => Quoting.mask (p.text k)) ++
          ' ' :: ((k.spell w.text ++ spaced (ws.map fun v => k.spell v.text)) ++
            maskedPieces k (post.flatMap Modifier.pieces)) := by
      rw [List.flatMap_append, List.flatMap_cons, hpieces, maskedPieces_append, maskedPieces_append,
        maskedPieces_words]
      simp [maskedPieces, spaced]
    have hread : (wholePhrase? (w.text :: ws.map Keyword.text)
        ((k.spell w.text ++ spaced (ws.map fun v => k.spell v.text)) ++
          maskedPieces k (post.flatMap Modifier.pieces))).map (fun rest => ((), rest)) =
        some ((), maskedPieces k (post.flatMap Modifier.pieces)) := by
      simp [wholePhrase?, phrase?_words, maskedPieces, endsWord_spaced]
    have hne : k.spell w.text ++ spaced (ws.map fun v => k.spell v.text) ≠ [] :=
      List.append_ne_nil_of_left_ne_nil (k.plain_spell w.isCapital).1 _
    rw [htext, search?_spaced_first w.isCapital hleads hidle hne hread rfl]
    simp [hm]

section
variable (k : Casing) {ms : List Modifier} (hms : ∀ m ∈ ms, m.Simple)
include hms

theorem isPrimaryKey_pieces :
    hasPhrase ["PRIMARY", "KEY"] (maskedPieces k (ms.flatMap Modifier.pieces)) =
      ms.any Modifier.isPrimaryKey := by
  refine hasPhrase_pieces k .primary [.key] .primaryKey (by decide) (by decide) rfl ?_ ?_ hms
  · intro m hm
    cases m <;> first | exact of_decide_eq_true rfl | cases hm
  · intro m hm
    cases m <;> first | rfl | cases hm

theorem isNotNull_pieces :
    hasPhrase ["NOT", "NULL"] (maskedPieces k (ms.flatMap Modifier.pieces)) =
      ms.any Modifier.isNotNull := by
  refine hasPhrase_pieces k .not [.null] .notNull (by decide) (by decide) rfl ?_ ?_ hms
  · intro m hm
    cases m <;> first | exact of_decide_eq_true rfl | cases hm
  · intro m hm
    cases m <;> first | rfl | cases hm

theorem isUnique_pieces :
    hasPhrase ["UNIQUE"] (maskedPieces k (ms.flatMap Modifier.pieces)) =
      ms.any Modifier.isUnique := by
  refine hasPhrase_pieces k .unique [] .unique (by decide) (by decide) rfl ?_ ?_ hms
  · intro m hm
    cases m <;> first | exact of_decide_eq_true rfl | cases hm
  · intro m hm
    cases m <;> first | rfl | cases hm

theorem default?_pieces :
    defaultValue? (spacedPieces k (ms.flatMap Modifier.pieces))
      (maskedPieces k (ms.flatMap Modifier.pieces)) = ms.findSome? Modifier.default? := by
  have hchecks : ∀ e, .check e ∈ ms → Lacks "DEFAULT" (Quoting.mask e.text) := by
    intro e he
    have hgroup : (Piece.group e).Simple := (hms _ he).pieces _ (by simp [Modifier.pieces])
    exact hgroup.masked .default (by decide)
  rw [defaultValue?_pieces k (opensDefault_pieces hchecks),
    behindDefault?_of_not_mentions k fun m hm => (hms m hm).noDefault]

end

theorem checkMark?_check (k : Casing) {pre : List Piece}
    (hidle : ∀ t ∈ pre.map fun p => Quoting.mask (p.text k), Idle readCheck t) (e : Expression)
    (post : List Piece) :
    checkMark? (maskedPieces k (pre ++ .word .check :: .group e :: post)) =
      some ⟨width (spacedPieces k pre ++ [' ']),
        width (spacedPieces k pre ++ [' '] ++ (k.spell Keyword.check.text ++ " (")), ()⟩ := by
  have htext : maskedPieces k (pre ++ .word .check :: .group e :: post) =
      spaced (pre.map fun p => Quoting.mask (p.text k)) ++
        ' ' :: ((k.spell Keyword.check.text ++ " (") ++
          (Quoting.mask e.text ++ ')' :: maskedPieces k post)) := by
    simp [maskedPieces, spaced, Piece.text, mask_word, mask_group]
  have hread : readCheck ((k.spell Keyword.check.text ++ " (") ++
      (Quoting.mask e.text ++ ')' :: maskedPieces k post)) =
      some ((), Quoting.mask e.text ++ ')' :: maskedPieces k post) := by
    have hself := k.keyword?_spell_self Keyword.check.isCapital.2
      (" (" ++ (Quoting.mask e.text ++ ')' :: maskedPieces k post))
    simp only [readCheck, show ("CHECK" : Text) = Keyword.check.text from rfl, List.append_assoc,
      hself, Option.bind_eq_bind, Option.bind_some]
    rfl
  have hne : k.spell Keyword.check.text ++ (" (" : Text) ≠ [] :=
    List.append_ne_nil_of_left_ne_nil (k.plain_spell Keyword.check.isCapital).1 _
  have hwidth : width (spaced (pre.map fun p => Quoting.mask (p.text k))) =
      width (spacedPieces k pre) := width_maskedPieces k pre
  rw [checkMark?_eq, htext, search?_spaced_first Keyword.check.isCapital leads_readCheck hidle hne
    hread rfl]
  simp only [width_append, hwidth]

theorem checkClause?_check (k : Casing) {pre : List Piece}
    (hidle : ∀ t ∈ pre.map fun p => Quoting.mask (p.text k), Idle readCheck t) (e : Expression)
    (post : List Piece) :
    checkClause? (spacedPieces k (pre ++ .word .check :: .group e :: post))
      (maskedPieces k (pre ++ .word .check :: .group e :: post)) =
        (Modifier.check e).check? k := by
  have htext : spacedPieces k (pre ++ .word .check :: .group e :: post) =
      (spacedPieces k pre ++ [' ']) ++ ((k.spell Keyword.check.text ++ " (") ++
        (e.text ++ ')' :: spacedPieces k post)) := by
    simp [spacedPieces, spaced, Piece.text]
  have hgroup := group?_of_quiet e.balanced.quiet e.balanced.exists_foldl (spacedPieces k post)
  rw [htext, checkClause?_of_found (checkMark?_check k hidle e post), hgroup]
  simp [Modifier.check?]

section
variable (k : Casing) {ms : List Modifier} (hms : ∀ m ∈ ms, m.Simple)
include hms

theorem checkClause?_pieces :
    checkClause? (spacedPieces k (ms.flatMap Modifier.pieces))
      (maskedPieces k (ms.flatMap Modifier.pieces)) = ms.findSome? (Modifier.check? k) := by
  have hlead : ∀ m : Modifier, m.check? k = none → m.lead ≠ .check := by
    intro m hm
    cases m <;> first | exact of_decide_eq_true rfl | cases hm
  cases hfind : ms.findSome? (Modifier.check? k) with
  | none =>
    have hnone := List.findSome?_eq_none_iff.1 hfind
    have hidle := idle_masked k hms (w := .check) (by decide) (by decide)
      (fun m hm => hlead m (hnone m hm)) leads_readCheck
    have hmark : checkMark? (maskedPieces k (ms.flatMap Modifier.pieces)) = none :=
      search?_spaced_none Keyword.check.isCapital leads_readCheck _ hidle
    simp [checkClause?, hmark]
  | some t =>
    obtain ⟨pre, m, post, rfl, hm, hpre⟩ := List.findSome?_eq_some_iff.1 hfind
    cases m with
    | check e =>
      have hsimple : ∀ n ∈ pre, n.Simple := fun n hn => hms n (List.mem_append_left _ hn)
      have hidle := idle_masked k hsimple (w := .check) (by decide) (by decide)
        (fun n hn => hlead n (hpre n hn)) leads_readCheck
      rw [List.flatMap_append, List.flatMap_cons]
      exact (checkClause?_check k hidle e (post.flatMap Modifier.pieces)).trans hm
    | _ => cases hm

end

theorem referenceClause?_text (k : Casing) {t : TableName} {c : Part}
    (hplain : ∀ p ∈ t.parts ++ [c], p.Plain) (rest : Text) :
    referenceClause? ((k.spell Keyword.references.text ++
        ' ' :: (t.text ++ '(' :: (c.text ++ [')']))) ++ rest) =
      some (⟨t.content, c.content⟩, rest) := by
  have htext : (k.spell Keyword.references.text ++
      ' ' :: (t.text ++ '(' :: (c.text ++ [')']))) ++ rest =
      k.spell Keyword.references.text ++ ' ' :: (t.text ++ '(' :: (c.text ++ ')' :: rest)) := by
    simp
  have hself := k.keyword?_spell_self Keyword.references.isCapital.2
    (' ' :: (t.text ++ '(' :: (c.text ++ ')' :: rest)))
  obtain ⟨n, hn, hname⟩ := t.qualifiedName? (c.text ++ ')' :: rest)
  have hblanks : blanks? (' ' :: (t.text ++ '(' :: (c.text ++ ')' :: rest))) =
      some (t.text ++ '(' :: (c.text ++ ')' :: rest)) := by
    obtain ⟨d, s, hs, hd⟩ := t.exists_cons
    rw [hs, blanks?, if_pos (by decide), List.cons_append, skipBlanks_solid hd]
  have hopen : mark? '(' (skipBlanks ('(' :: (c.text ++ ')' :: rest))) = some (c.text ++ ')' :: rest) :=
    rfl
  have hcolumn := c.name? TableName.isNamePart_marks.2.2.1 rest
  have hclose : mark? ')' (skipBlanks (')' :: rest)) = some rest := rfl
  have htable : normalizeName t.text = t.content :=
    t.normalizeName fun p hp => hplain p (List.mem_append_left _ hp)
  have hlast : normalizeName c.text = c.content :=
    c.normalizeName (hplain c (List.mem_append_right _ List.mem_cons_self))
  simp only [referenceClause?, clause?, show ("REFERENCES" : Text) = Keyword.references.text from rfl,
    htext, hself, hblanks, hname, hn, hopen, c.skipBlanks, hcolumn, hclose, htable, hlast,
    Option.bind_eq_bind, Option.bind_some]
  rfl

theorem beginsWith_spell (k : Casing) {w : Text} (hw : ∀ c ∈ w, c.isUpper = true) (rest : Text) :
    Text.beginsWith (k.spell w ++ rest) w = true := by
  induction w with
  | nil => simp [Text.beginsWith]
  | cons c w ih =>
    obtain ⟨hc, hw⟩ := List.forall_mem_cons.1 hw
    have hspell :
        k.spell (c :: w) ++ rest = (if k c then c.toLower else c) :: (k.spell w ++ rest) := rfl
    have hlower : (if k c then c.toLower else c).toLower = c.toLower := by
      split
      · exact Casing.toLower_toLower hc
      · rfl
    rw [hspell, Text.beginsWith, hlower, ih hw]
    simp

/-- The clause is read from the text itself; the mask only has to show the word there too. -/
theorem inlineReference?_first (k : Casing) {pre : List Piece}
    (hidle : ∀ t ∈ pre.map (Piece.text k), Idle referenceClause? t) {t : TableName} {c : Part}
    (hplain : ∀ p ∈ t.parts ++ [c], p.Plain) (post : List Piece) :
    inlineReference? (spacedPieces k (pre ++ .word .references :: .target t c :: post))
      (maskedPieces k (pre ++ .word .references :: .target t c :: post)) =
        some ⟨t.content, c.content⟩ := by
  have htext : spacedPieces k (pre ++ .word .references :: .target t c :: post) =
      spaced (pre.map (Piece.text k)) ++ ' ' :: ((k.spell Keyword.references.text ++
        ' ' :: (t.text ++ '(' :: (c.text ++ [')']))) ++ spacedPieces k post) := by
    simp [spacedPieces, spaced, Piece.text]
  have hmasked : maskedPieces k (pre ++ .word .references :: .target t c :: post) =
      (maskedPieces k pre ++ [' ']) ++ (k.spell Keyword.references.text ++
        maskedPieces k (.target t c :: post)) := by
    simp [maskedPieces, spaced, Piece.text, mask_word]
  have hwidth : width (spaced (pre.map (Piece.text k)) ++ [' ']) =
      width (maskedPieces k pre ++ [' ']) := by
    rw [width_append, width_append, width_maskedPieces]
    rfl
  have hbegins := beginsWith_spell k Keyword.references.isCapital.2
    (maskedPieces k (.target t c :: post))
  have haccept : (Text.dropBytes? (width (spaced (pre.map (Piece.text k)) ++ [' ']))
      (maskedPieces k (pre ++ .word .references :: .target t c :: post))).any
        (Text.beginsWith · "REFERENCES") = true := by
    rw [hmasked, hwidth, dropBytes?_width_append, Option.any_some]
    exact hbegins
  have hne : k.spell Keyword.references.text ++ ' ' :: (t.text ++ '(' :: (c.text ++ [')'])) ≠ [] :=
    List.append_ne_nil_of_left_ne_nil (k.plain_spell Keyword.references.isCapital).1 _
  rw [inlineReference?, htext, search?_spaced_first isCapital_references leads_referenceClause? hidle
    hne (referenceClause?_text k hplain _) haccept]
  rfl

section
variable (k : Casing) {ms : List Modifier} (hms : ∀ m ∈ ms, m.Simple)
include hms

theorem inlineReference?_pieces :
    inlineReference? (spacedPieces k (ms.flatMap Modifier.pieces))
      (maskedPieces k (ms.flatMap Modifier.pieces)) = ms.findSome? Modifier.reference? := by
  have hlead : ∀ m : Modifier, m.reference? = none → m.lead ≠ .references := by
    intro m hm
    cases m <;> first | exact of_decide_eq_true rfl | cases hm
  cases hfind : ms.findSome? Modifier.reference? with
  | none =>
    have hnone := List.findSome?_eq_none_iff.1 hfind
    have hidle := idle_texts k hms (fun m hm => hlead m (hnone m hm)) leads_referenceClause?
    rw [inlineReference?, spacedPieces,
      search?_spaced_none isCapital_references leads_referenceClause? _ hidle]
    rfl
  | some r =>
    obtain ⟨pre, m, post, rfl, hm, hpre⟩ := List.findSome?_eq_some_iff.1 hfind
    cases m with
    | references t c actions =>
      have hsimple : ∀ n ∈ pre, n.Simple := fun n hn => hms n (List.mem_append_left _ hn)
      have hidle := idle_texts k hsimple (fun n hn => hlead n (hpre n hn)) leads_referenceClause?
      have hplain : ∀ p ∈ t.parts ++ [c], p.Plain := by
        have htarget : (Piece.target t c).Simple :=
          (hms _ (List.mem_append_right _ List.mem_cons_self)).pieces _ (by simp [Modifier.pieces])
        exact fun p hp => (htarget p hp).2
      obtain ⟨rest, hpieces⟩ : ∃ rest,
          (pre ++ .references t c actions :: post).flatMap Modifier.pieces =
            pre.flatMap Modifier.pieces ++ .word .references :: .target t c :: rest :=
        ⟨_, by rw [List.flatMap_append, List.flatMap_cons]; rfl⟩
      cases hm
      rw [hpieces]
      exact inlineReference?_first k hidle hplain rest
    | _ => cases hm

end

/-- A printed declaration is read as the column that it is, and no reference but its own is found. -/
theorem ofFragment?_declaration (k : Casing) (d : Declaration) (h : ∀ m ∈ d.modifiers, m.Simple) :
    ColumnDeclaration.ofFragment? (d.text k) = some ⟨d.column k, d.reference?⟩ := by
  have hpieces : d.pieces = d.modifiers.flatMap Modifier.pieces := rfl
  simp only [ColumnDeclaration.ofFragment?, trim_text, columnHead?_text, mask_pieces,
    Option.bind_eq_bind, Option.bind_some, hpieces, isPrimaryKey_pieces k h, isNotNull_pieces k h,
    isUnique_pieces k h, default?_pieces k h, checkClause?_pieces k h, inlineReference?_pieces k h]
  rfl

def quotedColumn : Declaration where
  name := .quoted "full name" (by decide) (by decide)
  plain := by decide
  dataType := ⟨.zoned true (some ⟨⟨"3", by decide +kernel⟩, by decide⟩) false, none,
    [⟨"2", by decide +kernel⟩, ⟨[], by decide⟩]⟩
  modifiers :=
    [.references ⟨some (.bare "auth" (by decide)), .bare "users" (by decide +kernel)⟩
        idName [⟨true, .setNull⟩],
      .check ⟨"a <> 'ü UNIQUE)' AND (b)", ⟨⟨by decide, by decide +kernel⟩, by decide +kernel⟩⟩,
      .unique,
      .default ⟨"f('NOT NULL, (', 2)", by decide, by decide +kernel, by decide +kernel,
        by decide⟩,
      .notNull, .identity true, .primaryKey]

theorem ofFragment?_declaration_quoted :
    quotedColumn.text (· ≠ 'D') =
        ("\"full name\" timestamp(3) with time zone[2][] " ++
          "references auth.users(id) on Delete set null check (a <> 'ü UNIQUE)' AND (b)) unique " ++
          "Default f('NOT NULL, (', 2) not null generateD always as iDentity primary key" :
            String).toList ∧
      ColumnDeclaration.ofFragment? (quotedColumn.text (· ≠ 'D')) = some
        { column :=
            { name := "full name"
              dataType := "timestamp(3) with time zone[2][]"
              isPrimaryKey := true
              isNotNull := true
              default? := some "f('NOT NULL, (', 2)"
              constraints := ["UNIQUE", "check (a <> 'ü UNIQUE)' AND (b))"] }
          reference? := some ⟨"auth.users", "id"⟩ } := by
  have hsimple : ∀ m ∈ quotedColumn.modifiers, m.Simple := by decide +kernel
  refine ⟨?_, (ofFragment?_declaration (· ≠ 'D') quotedColumn hsimple).trans ?_⟩
  · -- The literals are taken for the lists they come from: the kernel decodes long strings slowly.
    rw [String.toList_append, String.toList_append, String.toList_ofList, String.toList_ofList,
      String.toList_ofList]
    decide +kernel
  · decide +kernel

end SchemaDiagram.Declaration
