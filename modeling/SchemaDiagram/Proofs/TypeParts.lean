import SchemaDiagram.Proofs.Declaration.Head
import SchemaDiagram.Proofs.Substitution.Column

/-!
The parts of a type as they stand in a text. What a reader takes is described by a property of texts
(`Takes`), put together as the reader is. A type has a list in parentheses behind its words, and a
second one among them only if it is a time with a zone (`exists_parts_of_dataType?`).
-/

set_option autoImplicit false

namespace SchemaDiagram.Sql
open Unicode Text

/-- What is read is a beginning of the text that has the property. -/
def Takes (read : Text → Option Text) (P : Text → Prop) : Prop :=
  ∀ s r, read s = some r → ∃ u, s = u ++ r ∧ P u

def Joined (P Q : Text → Prop) (u : Text) : Prop := ∃ a b, u = a ++ b ∧ P a ∧ Q b

def Maybe (P : Text → Prop) (u : Text) : Prop := u = [] ∨ P u

def IsGap (u : Text) : Prop := ∀ c ∈ u, isBlank c = true

instance (u : Text) : Decidable (IsGap u) := inferInstanceAs (Decidable (∀ c ∈ u, isBlank c = true))

def IsSpace (u : Text) : Prop := u ≠ [] ∧ IsGap u

instance (u : Text) : Decidable (IsSpace u) := inferInstanceAs (Decidable (u ≠ [] ∧ IsGap u))

/-- The text spells the word, in any letter case. -/
def Spells (w u : Text) : Prop := keyword? w u = some []

instance (w u : Text) : Decidable (Spells w u) := inferInstanceAs (Decidable (keyword? w u = some []))

/-- A list in parentheses, up to the first closing one, with blanks in front allowed. -/
def IsList (u : Text) : Prop :=
  ∃ gap inside, u = gap ++ '(' :: (inside ++ [')']) ∧ IsGap gap ∧ ')' ∉ inside

theorem IsList.mem {u : Text} (h : IsList u) : '(' ∈ u := by
  obtain ⟨gap, inside, rfl, -, -⟩ := h
  exact List.mem_append_right gap List.mem_cons_self

namespace Takes
variable {read next : Text → Option Text} {P Q : Text → Prop}

theorem mono (h : Takes read P) (hP : ∀ u, P u → Q u) : Takes read Q := by
  intro s r hr
  obtain ⟨u, hu, hp⟩ := h s r hr
  exact ⟨u, hu, hP u hp⟩

theorem bind (h : Takes read P) (hnext : Takes next Q) :
    Takes (fun s => (read s).bind next) (Joined P Q) := by
  intro s r hr
  obtain ⟨t, ht, hrest⟩ := Option.bind_eq_some_iff.1 hr
  obtain ⟨a, rfl, ha⟩ := h s t ht
  obtain ⟨b, rfl, hb⟩ := hnext t r hrest
  exact ⟨a ++ b, by rw [List.append_assoc], a, b, rfl, ha, hb⟩

theorem orElse (h : Takes read P) (hnext : Takes next Q) :
    Takes (fun s => read s <|> next s) fun u => P u ∨ Q u := by
  intro s r hr
  simp only [Option.orElse_eq_orElse, Option.orElse_eq_or, Option.or_eq_some_iff] at hr
  rcases hr with hr | ⟨-, hr⟩
  · exact h.mono (fun _ => .inl) s r hr
  · exact hnext.mono (fun _ => .inr) s r hr

theorem optional (h : Takes read P) (s : Text) : ∃ u, s = u ++ Sql.optional read s ∧ Maybe P u := by
  unfold Sql.optional
  cases hr : read s with
  | none => exact ⟨[], rfl, .inl rfl⟩
  | some r =>
    obtain ⟨u, hu, hp⟩ := h s r hr
    exact ⟨u, hu, .inr hp⟩

theorem behind {skip : Text → Text} (hskip : ∀ s, ∃ a, s = a ++ skip s ∧ P a) (h : Takes next Q) :
    Takes (fun s => next (skip s)) (Joined P Q) := by
  intro s r hr
  obtain ⟨a, hs, ha⟩ := hskip s
  obtain ⟨b, hb, hq⟩ := h (skip s) r hr
  exact ⟨a ++ b, by rw [List.append_assoc, ← hb, ← hs], a, b, rfl, ha, hq⟩

end Takes

theorem exists_dropWhile (p : Char → Bool) (s : Text) :
    ∃ a, s = a ++ s.dropWhile p ∧ ∀ c ∈ a, p c = true :=
  ⟨s.takeWhile p, List.takeWhile_append_dropWhile.symm, fun _ hc => List.mem_takeWhile_imp hc⟩

theorem exists_skipBlanks (s : Text) : ∃ a, s = a ++ skipBlanks s ∧ IsGap a :=
  exists_dropWhile isBlank s

theorem takes_keyword? (w : Text) : Takes (keyword? w) (Spells w) := by
  intro s r h
  obtain ⟨x, hs, hx⟩ := exists_of_keyword? h
  exact ⟨x, hs, hx⟩

theorem takes_mark? (m : Char) : Takes (mark? m) (· = [m]) :=
  fun _ _ h => ⟨[m], eq_cons_of_mark? h, rfl⟩

theorem takes_blanks? : Takes blanks? IsSpace := by
  intro s r h
  cases s with
  | nil => cases h
  | cons c s =>
    rw [blanks?] at h
    split at h
    · rename_i hc
      cases h
      obtain ⟨a, hs, ha⟩ := exists_skipBlanks s
      refine ⟨c :: a, by rw [List.cons_append, ← hs], List.cons_ne_nil c a, ?_⟩
      exact List.forall_mem_cons.2 ⟨hc, ha⟩
    · cases h

theorem takes_phrase? (v w : Text) :
    Takes (phrase? [v, w]) (Joined (Spells v) (Joined IsSpace (Spells w))) :=
  (takes_keyword? v).bind (takes_blanks?.bind (takes_keyword? w))

theorem takes_gapMark (m : Char) : Takes (fun s => mark? m (skipBlanks s)) (Joined IsGap (· = [m])) :=
  (takes_mark? m).behind exists_skipBlanks

theorem not_mem_of_isGap {u : Text} (h : IsGap u) {c : Char} (hc : isBlank c = false) : c ∉ u := by
  intro hmem
  rw [h c hmem] at hc
  cases hc

theorem takes_parenthesized? : Takes (fun s => (parenthesized? s).map Prod.snd) IsList := by
  intro s r h
  obtain ⟨⟨inside, t⟩, hread, rfl⟩ := Option.map_eq_some_iff.1 h
  simp only [parenthesized?, Option.bind_eq_bind, Option.bind_eq_some_iff, Option.pure_def,
    Option.some.injEq, Prod.mk.injEq] at hread
  obtain ⟨u, hu, v, hv, rfl, rfl⟩ := hread
  obtain ⟨_, rfl, gap, _, rfl, hgap, rfl⟩ := takes_gapMark '(' s u hu
  refine ⟨_, ?_, gap, u.takeWhile (· ≠ ')'), rfl, hgap, fun hmem => ?_⟩
  · have hsplit := List.takeWhile_append_dropWhile (p := fun c => decide (c ≠ ')')) (l := u)
    rw [eq_cons_of_mark? hv] at hsplit
    simp only [List.append_assoc, List.cons_append, List.nil_append, hsplit]
  · simpa using List.mem_takeWhile_imp hmem

theorem takes_digitsMark (m : Char) :
    Takes (fun s => mark? m (skipBlanks (s.dropWhile isNameDigit)))
      (Joined (∀ c ∈ ·, isNameDigit c = true) (Joined IsGap (· = [m]))) := by
  intro s r h
  exact (takes_gapMark m).behind (exists_dropWhile isNameDigit) s r h

theorem not_mem_digits {before digits after : Text} (hbefore : IsGap before)
    (hdigits : ∀ c ∈ digits, isNameDigit c = true) (hafter : IsGap after) {m : Char}
    (hm : isBlank m = false ∧ isNameDigit m = false) : m ∉ before ++ (digits ++ after) := by
  simp only [List.mem_append, not_or]
  refine ⟨not_mem_of_isGap hbefore hm.1, fun hmem => ?_, not_mem_of_isGap hafter hm.1⟩
  rw [hdigits m hmem] at hm
  cases hm.2

theorem takes_precision? : Takes precision? IsList := by
  have hdigits : Takes (fun s => if (s.dropWhile isNameDigit).length < s.length then
      mark? ')' (skipBlanks (s.dropWhile isNameDigit)) else none)
      (Joined (∀ c ∈ ·, isNameDigit c = true) (Joined IsGap (· = [')']))) := by
    intro s r h
    exact takes_digitsMark ')' s r (Option.ite_none_right_eq_some.1 h).2
  refine ((takes_gapMark '(').bind (hdigits.behind exists_skipBlanks)).mono ?_
  rintro _ ⟨_, _, rfl, ⟨gap, _, rfl, hgap, rfl⟩, ⟨before, _, rfl, hbefore, digits, _, rfl, hall,
    after, _, rfl, hafter, rfl⟩⟩
  exact ⟨gap, before ++ (digits ++ after), by simp, hgap,
    not_mem_digits hbefore hall hafter (by decide)⟩

/-- Begins and ends without a blank, and holds no sign of a list or an array mark. -/
structure IsName (u : Text) : Prop where
  head : ∃ c s, u = c :: s ∧ isBlank c = false
  last : Declaration.SolidEnd u
  unmarked : ∀ c ∈ u, c ≠ '(' ∧ c ≠ ')' ∧ c ≠ '['

theorem isName_of_solid {u : Text} (hne : u ≠ [])
    (h : ∀ c ∈ u, isBlank c = false ∧ c ≠ '(' ∧ c ≠ ')' ∧ c ≠ '[') : IsName u := by
  obtain ⟨c, s, rfl⟩ := List.exists_cons_of_ne_nil hne
  exact ⟨⟨c, s, rfl, (h c List.mem_cons_self).1⟩, Declaration.solidEnd_of_solid fun d hd => (h d hd).1,
    fun d hd => (h d hd).2⟩

theorem IsName.gap {a g b : Text} (ha : IsName a) (hg : IsGap g) (hb : IsName b) :
    IsName (a ++ (g ++ b)) := by
  obtain ⟨c, s, rfl, hc⟩ := ha.head
  obtain ⟨d, t, rfl, hd⟩ := hb.head
  have hmarks : isBlank '(' = false ∧ isBlank ')' = false ∧ isBlank '[' = false := by decide
  refine ⟨⟨c, s ++ (g ++ d :: t), rfl, hc⟩, ?_, ?_⟩
  · rw [← List.append_assoc]
    exact hb.last.after (List.cons_ne_nil d t) _
  · intro e he
    rcases List.mem_append.1 he with he | he
    · exact ha.unmarked e he
    rcases List.mem_append.1 he with he | he
    · exact ⟨ne_of_mem_of_not_mem he (not_mem_of_isGap hg hmarks.1),
        ne_of_mem_of_not_mem he (not_mem_of_isGap hg hmarks.2.1),
        ne_of_mem_of_not_mem he (not_mem_of_isGap hg hmarks.2.2)⟩
    · exact hb.unmarked e he

theorem isName_of_spells {w u : Text} (hw : IsCapital w) (h : Spells w u) : IsName u := by
  have hne : u ≠ [] := by
    rintro rfl
    obtain ⟨k, w, rfl⟩ := List.exists_cons_of_ne_nil hw.1
    cases h
  have hmarks : ∀ m ∈ ['(', ')', '['], isWordChar m = false := by decide
  refine isName_of_solid hne fun c hc => ?_
  have hword := isWordChar_of_keyword? hw.2 h c hc
  have hmark : ∀ m ∈ ['(', ')', '['], c ≠ m := by
    rintro m hm rfl
    rw [hmarks c hm] at hword
    cases hword
  refine ⟨?_, hmark _ (by simp), hmark _ (by simp), hmark _ (by simp)⟩
  rw [Bool.eq_false_iff]
  intro hblank
  rw [isWordChar_of_isBlank hblank] at hword
  cases hword

theorem isName_of_phrase {v w u : Text} (hv : IsCapital v) (hw : IsCapital w)
    (h : Joined (Spells v) (Joined IsSpace (Spells w)) u) : IsName u := by
  obtain ⟨a, _, rfl, ha, g, b, rfl, hg, hb⟩ := h
  exact (isName_of_spells hv ha).gap hg.2 (isName_of_spells hw hb)

def IsZone : Text → Prop :=
  Joined IsSpace (Joined (fun u => Spells "WITHOUT" u ∨ Spells "WITH" u)
    (Joined IsSpace (Joined (Spells "TIME") (Joined IsSpace (Spells "ZONE")))))

theorem exists_of_isZone {u : Text} (h : IsZone u) : ∃ g v, u = g ++ v ∧ IsSpace g ∧ IsName v := by
  obtain ⟨g, _, rfl, hg, a, _, rfl, ha, g', _, rfl, hg', hzone⟩ := h
  have hname : IsName a := ha.elim (isName_of_spells (by decide)) (isName_of_spells (by decide))
  exact ⟨g, _, rfl, hg, hname.gap hg'.2 (isName_of_phrase (by decide) (by decide) hzone)⟩

theorem IsZone.exists_blank {u : Text} (h : IsZone u) :
    (∃ c ∈ u, isBlank c = true) ∧ '(' ∉ u ∧ ')' ∉ u ∧ Declaration.SolidEnd u := by
  obtain ⟨g, v, rfl, ⟨hne, hgap⟩, hname⟩ := exists_of_isZone h
  obtain ⟨c, g, rfl⟩ := List.exists_cons_of_ne_nil hne
  obtain ⟨d, r, hv, -⟩ := hname.head
  have hnot : ∀ m, isBlank m = false → m ∉ v → m ∉ c :: g ++ v :=
    fun m hm hmem => List.mem_append.not.2 (not_or.2 ⟨not_mem_of_isGap hgap hm, hmem⟩)
  exact ⟨⟨c, List.mem_cons_self, hgap c List.mem_cons_self⟩,
    hnot _ (by decide) fun hmem => (hname.unmarked _ hmem).1 rfl,
    hnot _ (by decide) fun hmem => (hname.unmarked _ hmem).2.1 rfl,
    hname.last.after (hv ▸ List.cons_ne_nil d r) (c :: g)⟩

def IsTime (u : Text) : Prop := Spells "TIMESTAMP" u ∨ Spells "TIME" u

theorem IsTime.isName {u : Text} (h : IsTime u) : IsName u :=
  h.elim (isName_of_spells (by decide)) (isName_of_spells (by decide))

theorem takes_zonedTime? : Takes zonedTime? (Joined IsTime (Joined (Maybe IsList) IsZone)) := by
  have htime : Takes (fun s => keyword? "TIMESTAMP" s <|> keyword? "TIME" s) IsTime :=
    (takes_keyword? _).orElse (takes_keyword? _)
  have hzone : Takes (fun s => (keyword? "WITHOUT" s <|> keyword? "WITH" s).bind fun s =>
      (blanks? s).bind (phrase? ["TIME", "ZONE"]))
      (Joined (fun u => Spells "WITHOUT" u ∨ Spells "WITH" u)
        (Joined IsSpace (Joined (Spells "TIME") (Joined IsSpace (Spells "ZONE"))))) :=
    ((takes_keyword? _).orElse (takes_keyword? _)).bind (takes_blanks?.bind (takes_phrase? _ _))
  exact htime.bind ((takes_blanks?.bind hzone).behind takes_precision?.optional)

theorem takes_typeWord? : Takes typeWord? fun u => u ≠ [] ∧ ∀ c ∈ u, isTypePart c = true := by
  intro s r h
  cases s with
  | nil => cases h
  | cons c s =>
    rw [typeWord?] at h
    split at h
    · rename_i hc
      cases h
      obtain ⟨a, hs, ha⟩ := exists_dropWhile isTypePart s
      refine ⟨c :: a, by rw [List.cons_append, ← hs], List.cons_ne_nil c a, ?_⟩
      exact List.forall_mem_cons.2 ⟨by simp [isTypePart, hc], ha⟩
    · cases h

theorem takes_simpleType? : Takes simpleType? IsName := by
  have hclasses : ∀ c, isTypePart c = true ∨ c = '.' →
      isBlank c = false ∧ c ≠ '(' ∧ c ≠ ')' ∧ c ≠ '[' := by
    have hmarks : ∀ m ∈ ['(', ')', '['], isTypePart m = false ∧ m ≠ '.' := by decide
    intro c hc
    have hmark : ∀ m ∈ ['(', ')', '['], c ≠ m := by
      rintro m hm rfl
      obtain ⟨hpart, hpoint⟩ := hmarks c hm
      rcases hc with hc | hc
      · rw [hpart] at hc
        cases hc
      · exact hpoint hc
    refine ⟨?_, hmark _ (by simp), hmark _ (by simp), hmark _ (by simp)⟩
    rcases hc with hc | rfl
    · rw [Bool.eq_false_iff]
      intro hblank
      rw [Declaration.not_isTypePart_of_isBlank hblank] at hc
      cases hc
    · decide
  intro s r h
  simp only [simpleType?, Option.bind_eq_bind, Option.bind_eq_some_iff, Option.pure_def,
    Option.some.injEq] at h
  obtain ⟨t, ht, rfl⟩ := h
  obtain ⟨a, rfl, hne, ha⟩ := takes_typeWord? s t ht
  obtain ⟨b, hb, hsecond⟩ := ((takes_mark? '.').bind takes_typeWord?).optional t
  refine ⟨a ++ b, ?_, isName_of_solid (List.append_ne_nil_of_left_ne_nil hne b) ?_⟩
  · rw [List.append_assoc]
    exact congrArg (a ++ ·) hb
  intro c hc
  refine hclasses c ?_
  rcases List.mem_append.1 hc with hc | hc
  · exact .inl (ha c hc)
  rcases hsecond with rfl | ⟨_, v, rfl, rfl, -, hv⟩
  · cases hc
  · rcases List.mem_cons.1 hc with rfl | hc
    · exact .inr rfl
    · exact .inl (hv c hc)

theorem takes_typeName? :
    Takes typeName? fun u => IsName u ∨ Joined IsTime (Joined (Maybe IsList) IsZone) u := by
  have hphrase : ∀ {v w : Text}, IsCapital v → IsCapital w → Takes (phrase? [v, w]) IsName :=
    fun hv hw => (takes_phrase? _ _).mono fun _ h => isName_of_phrase hv hw h
  refine ((hphrase (v := "DOUBLE") (w := "PRECISION") (by decide) (by decide)).orElse
    ((hphrase (v := "CHARACTER") (w := "VARYING") (by decide) (by decide)).orElse
      ((hphrase (v := "BIT") (w := "VARYING") (by decide) (by decide)).orElse
        (takes_zonedTime?.orElse takes_simpleType?)))).mono ?_
  rintro u (h | h | h | h | h)
  · exact .inl h
  · exact .inl h
  · exact .inl h
  · exact .inr h
  · exact .inl h

/-- Array marks, from the first opening bracket to the last closing one, with blanks in front
allowed. -/
def IsMarks (u : Text) : Prop :=
  ∃ gap inside, u = gap ++ '[' :: (inside ++ [']']) ∧ IsGap gap ∧ '(' ∉ inside ∧ ')' ∉ inside

theorem IsMarks.append {u v : Text} (hu : IsMarks u) (hv : IsMarks v) : IsMarks (u ++ v) := by
  obtain ⟨gap, a, rfl, hgap, ha⟩ := hu
  obtain ⟨gap', b, rfl, hgap', hb⟩ := hv
  have hnot : ∀ m, isBlank m = false → m ≠ '[' → m ≠ ']' → m ∉ a → m ∉ b →
      m ∉ a ++ ']' :: (gap' ++ '[' :: b) := by
    intro m hm hopen hclose hma hmb
    simp [hopen, hclose, hma, hmb, not_mem_of_isGap hgap' hm]
  exact ⟨gap, a ++ ']' :: (gap' ++ '[' :: b), by simp, hgap,
    hnot _ (by decide) (by decide) (by decide) ha.1 hb.1,
    hnot _ (by decide) (by decide) (by decide) ha.2 hb.2⟩

theorem solidEnd_concat {c : Char} (hc : isBlank c = false) (u : Text) :
    Declaration.SolidEnd (u ++ [c]) :=
  (Declaration.solidEnd_of_solid (List.forall_mem_singleton.2 hc)).after (List.cons_ne_nil c []) u

theorem solidEnd_list (gap inside : Text) {v : Text} (hv : Declaration.SolidEnd v) :
    Declaration.SolidEnd (gap ++ '(' :: (inside ++ ')' :: v)) := by
  have hend := (solidEnd_concat (c := ')') (by decide) (gap ++ '(' :: inside)).append hv
  simpa only [List.append_assoc, List.cons_append, List.nil_append] using hend

theorem unlisted_of_marks {u : Text} (h : Maybe IsMarks u) :
    '(' ∉ u ∧ ')' ∉ u ∧ Declaration.SolidEnd u := by
  rcases h with rfl | ⟨gap, inside, rfl, hgap, hopen, hclose⟩
  · exact ⟨nofun, nofun, nofun⟩
  have hnot : ∀ m, isBlank m = false → m ≠ '[' → m ≠ ']' → m ∉ inside →
      m ∉ gap ++ '[' :: (inside ++ [']']) := by
    intro m hm hfirst hlast hinside
    simp [hfirst, hlast, hinside, not_mem_of_isGap hgap hm]
  have hend := solidEnd_concat (c := ']') (by decide) (gap ++ '[' :: inside)
  rw [List.append_assoc, List.cons_append] at hend
  exact ⟨hnot _ (by decide) (by decide) (by decide) hopen,
    hnot _ (by decide) (by decide) (by decide) hclose, hend⟩

theorem takes_arrayMark? : Takes arrayMark? IsMarks := by
  refine ((takes_gapMark '[').bind ((takes_digitsMark ']').behind exists_skipBlanks)).mono ?_
  rintro _ ⟨_, _, rfl, ⟨gap, _, rfl, hgap, rfl⟩, ⟨before, _, rfl, hbefore, digits, _, rfl, hall,
    after, _, rfl, hafter, rfl⟩⟩
  exact ⟨gap, before ++ (digits ++ after), by simp, hgap,
    not_mem_digits hbefore hall hafter (by decide), not_mem_digits hbefore hall hafter (by decide)⟩

theorem exists_skipArrayMarks (s : Text) :
    ∃ a, s = a ++ skipArrayMarks s ∧ Maybe IsMarks a := by
  fun_induction skipArrayMarks s with
  | case1 s r hr ih =>
    obtain ⟨u, rfl, hu⟩ := takes_arrayMark? s r hr
    obtain ⟨a, ha, hmarks⟩ := ih
    refine ⟨u ++ a, by rw [List.append_assoc, ← ha], .inr ?_⟩
    rcases hmarks with rfl | hmarks
    · rwa [List.append_nil]
    · exact hu.append hmarks
  | case2 s hs => exact ⟨[], rfl, .inl rfl⟩

structure TypeParts where
  name : Text
  precision : Text
  zone : Text
  parameters : Text
  arrays : Text
  deriving DecidableEq

namespace TypeParts

def text (p : TypeParts) : Text := p.name ++ (p.precision ++ (p.zone ++ (p.parameters ++ p.arrays)))

/-- What a type is made of. The words of the zone are a part of their own only behind a list. -/
structure Valid (p : TypeParts) : Prop where
  name : IsName p.name
  zone : p.precision = [] ∧ p.zone = [] ∨ IsTime p.name ∧ IsList p.precision ∧ IsZone p.zone
  parameters : Maybe IsList p.parameters
  arrays : Maybe IsMarks p.arrays

end TypeParts

theorem exists_words {u : Text} (h : IsName u ∨ Joined IsTime (Joined (Maybe IsList) IsZone) u) :
    ∃ name precision zone, u = name ++ (precision ++ zone) ∧ IsName name ∧
      (precision = [] ∧ zone = [] ∨ IsTime name ∧ IsList precision ∧ IsZone zone) := by
  rcases h with h | ⟨name, _, rfl, htime, precision, zone, rfl, hlist, hzone⟩
  · exact ⟨u, [], [], (List.append_nil u).symm, h, .inl ⟨rfl, rfl⟩⟩
  rcases hlist with rfl | hlist
  · obtain ⟨gap, v, rfl, hgap, hv⟩ := exists_of_isZone hzone
    exact ⟨name ++ (gap ++ v), [], [], by simp, htime.isName.gap hgap.2 hv, .inl ⟨rfl, rfl⟩⟩
  · exact ⟨name, precision, zone, rfl, htime.isName, .inr ⟨htime, hlist, hzone⟩⟩

/-- A type that is read is made of its parts. -/
theorem exists_parts_of_dataType? {s t r : Text} (h : dataType? s = some (t, r)) :
    ∃ p : TypeParts, p.Valid ∧ p.text = t := by
  simp only [dataType?, Option.bind_eq_bind, Option.bind_eq_some_iff, Option.pure_def,
    Option.some.injEq, Prod.mk.injEq] at h
  obtain ⟨u, hu, rfl, rfl⟩ := h
  obtain ⟨words, rfl, hwords⟩ := takes_typeName? s u hu
  obtain ⟨parameters, hp, hparameters⟩ := takes_parenthesized?.optional u
  obtain ⟨arrays, ha, harrays⟩ :=
    exists_skipArrayMarks (Sql.optional (fun t => (parenthesized? t).map Prod.snd) u)
  obtain ⟨name, precision, zone, rfl, hname, hzone⟩ := exists_words hwords
  refine ⟨⟨name, precision, zone, parameters, arrays⟩, ⟨hname, hzone, hparameters, harrays⟩, ?_⟩
  refine (take_of_eq_append ?_).symm
  rw [TypeParts.text]
  simp only [List.append_assoc]
  rw [← ha, ← hp]

end SchemaDiagram.Sql
