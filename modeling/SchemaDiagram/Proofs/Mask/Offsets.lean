import SchemaDiagram.Proofs.CheckClause
import SchemaDiagram.Proofs.Mask.Shown

/-!
Offsets between a text and its mask. A column declaration looks for its default and its check in the
mask and cuts them from the text, and it looks for its reference in the text and asks the mask about the
place. None of these offsets falls inside a character, of the text or of the mask (`cutsBetween`). So a
reading that has no answer where a cut falls inside a character has one for every fragment
(`ColumnDeclaration.strict?_eq`).
-/

set_option autoImplicit false

namespace SchemaDiagram.Text

/-- The byte offset falls between two characters, or on an end of the text. -/
def IsBoundary (s : Text) (n : Nat) : Prop := ∃ u v, s = u ++ v ∧ n = width u

theorem isBoundary_iff {s : Text} {n : Nat} : IsBoundary s n ↔ (dropBytes? n s).isSome = true := by
  rw [Option.isSome_iff_exists]
  constructor
  · rintro ⟨u, v, rfl, rfl⟩
    exact ⟨v, dropBytes?_width_append u v⟩
  · rintro ⟨r, h⟩
    fun_induction dropBytes? n s with
    | case1 s => exact ⟨[], s, rfl, rfl⟩
    | case2 => cases h
    | case3 n c s hle ih =>
      obtain ⟨u, v, rfl, hn⟩ := ih h
      refine ⟨c :: u, v, rfl, ?_⟩
      rw [width, ← hn]
      omega
    | case4 => cases h

instance (s : Text) (n : Nat) : Decidable (IsBoundary s n) := decidable_of_iff _ isBoundary_iff.symm

/-- The text between two byte offsets, if they are in order and both fall between characters. -/
def cut? (start stop : Nat) (s : Text) : Option Text :=
  if start ≤ stop then slice? start stop s else none

theorem cut?_append (u h t : Text) :
    cut? (width u) (width (u ++ h)) (u ++ (h ++ t)) = some h := by
  have hle : width u ≤ width (u ++ h) := by
    rw [width_append]
    exact Nat.le_add_right _ _
  rw [cut?, if_pos hle, Sql.slice?_append]

end SchemaDiagram.Text

namespace SchemaDiagram.Sql
open Text Unicode

theorem isBoundary_mask {s : Text} {n : Nat} (h : IsBoundary s n) : IsBoundary (Quoting.mask s) n := by
  obtain ⟨u, v, rfl, rfl⟩ := h
  refine ⟨Quoting.mask u, (Quoting.start.after u).maskFrom v, ?_, (Quoting.width_maskFrom _ u).symm⟩
  exact Quoting.maskFrom_append .start u v

theorem exists_of_readDefault {s r : Text} (h : readDefault s = some ((), r)) :
    ∃ w gap, s = w ++ gap ++ r ∧ Spells "DEFAULT" w ∧ IsSpace gap := by
  obtain ⟨r, hread, heq⟩ := Option.map_eq_some_iff.1 h
  cases heq
  obtain ⟨t, hword, hrest⟩ := Option.bind_eq_some_iff.1 hread
  obtain ⟨t, hblanks, heq⟩ := Option.bind_eq_some_iff.1 hrest
  cases heq
  obtain ⟨w, rfl, hw⟩ := takes_keyword? "DEFAULT" s t hword
  obtain ⟨gap, rfl, hgap⟩ := takes_blanks? t r hblanks
  exact ⟨w, gap, by rw [List.append_assoc], hw, hgap⟩

theorem exists_of_defaultMark? {s : Text} {found : Found Unit}
    (h : defaultMark? (Quoting.mask s) = some found) :
    ∃ u w gap v, s = u ++ (w ++ gap ++ v) ∧ found = ⟨width u, width (u ++ (w ++ gap)), ()⟩ ∧
      Spells "DEFAULT" w ∧ IsSpace gap := by
  have hread : ∀ t r, readDefault t = some ((), r) → ∃ x, t = x ++ r ∧ Visible x ∧
      ∃ w gap, x = w ++ gap ∧ Spells "DEFAULT" w ∧ IsSpace gap := by
    intro t r ht
    obtain ⟨w, gap, rfl, hw, hgap⟩ := exists_of_readDefault ht
    -- The mask keeps every quote, so none of these blanks stands for the content of a literal.
    exact ⟨_, rfl, visible_wordGap (by decide) hw hgap.2, w, gap, rfl, hw, hgap⟩
  obtain ⟨u, _, v, -, rfl, rfl, ⟨w, gap, rfl, hw, hgap⟩, -⟩ := exists_of_search?_mask hread h
  exact ⟨u, w, gap, v, rfl, rfl, hw, hgap⟩

theorem width_sub_paren (u x : Text) : width (u ++ (x ++ ['('])) - 1 = width (u ++ x) := by
  have hparen : width ['('] = 1 := rfl
  rw [← List.append_assoc, width_append, hparen, Nat.add_sub_cancel]

structure CutsBetween (s : Text) : Prop where
  default : ∀ found, defaultMark? (Quoting.mask s) = some found →
    IsBoundary s found.start ∧ IsBoundary s found.stop
  check : ∀ found, checkMark? (Quoting.mask s) = some found →
    IsBoundary s found.start ∧ IsBoundary s (found.stop - 1) ∧ IsBoundary s found.stop
  mask : ∀ n, IsBoundary s n → IsBoundary (Quoting.mask s) n

theorem cutsBetween (s : Text) : CutsBetween s := by
  refine ⟨fun found h => ?_, fun found h => ?_, fun _ => isBoundary_mask⟩
  · obtain ⟨u, w, gap, v, rfl, rfl, -, -⟩ := exists_of_defaultMark? h
    exact ⟨⟨u, _, rfl, rfl⟩, u ++ (w ++ gap), v, by simp, rfl⟩
  · obtain ⟨u, w, gap, v, rfl, rfl, -, -⟩ := exists_of_checkMark? h
    refine ⟨⟨u, _, rfl, rfl⟩, ⟨u ++ (w ++ gap), '(' :: v, by simp, ?_⟩,
      u ++ (w ++ (gap ++ ['('])), v, by simp, rfl⟩
    rw [← List.append_assoc w]
    exact width_sub_paren u (w ++ gap)

/-! Readings that break off. Where a cut falls inside a character or ends before it begins there is no
answer; `some none` says that there is nothing to read. -/

def strictDefault? (tail masked : Text) : Option (Option Text) :=
  match defaultMark? masked with
  | none => some none
  | some found => do
    let v := value (← dropBytes? found.stop tail)
    pure (if v.isEmpty then none else some v)

/-- The group of the check is looked for from its opening parenthesis on, and the check is cut from its
word to the closing one. -/
def strictCheck? (tail masked : Text) : Option (Option Text) :=
  match checkMark? masked with
  | none => some none
  | some found => do
    let opening := found.stop - 1
    match (mark? '(' (← dropBytes? opening tail)).bind group? with
    | none => pure none
    | some (inside, _) =>
      let close := opening + width ('(' :: inside)
      let clause ← cut? found.start (close + 1) tail
      pure (some clause)

def strictSearchFrom? {α : Type} (read : Text → Option (α × Text)) (accept? : Nat → Option Bool) :
    Option Char → Nat → Nat → Text → Option (Option (Found α))
  | _, _, _, [] => some none
  | _, passed + 1, offset, c :: s =>
    strictSearchFrom? read accept? (some c) passed (offset + c.utf8Size) s
  | before, 0, offset, c :: s =>
    match if beginsWord before then read (c :: s) else none with
    | some (value, rest) => do
      if ← accept? offset then
        pure (some ⟨offset, offset + (width (c :: s) - width rest), value⟩)
      else
        strictSearchFrom? read accept? (some c) (s.length - rest.length) (offset + c.utf8Size) s
    | none => strictSearchFrom? read accept? (some c) 0 (offset + c.utf8Size) s

def strictReference? (tail masked : Text) : Option (Option Reference) := do
  let found? ← strictSearchFrom? referenceClause?
    (fun offset => (dropBytes? offset masked).map (beginsWith · "REFERENCES")) none 0 0 tail
  pure (found?.map Found.value)

def ColumnDeclaration.strict? (fragment : Text) : Option (Option ColumnDeclaration) :=
  match columnHead? (trim fragment) with
  | none => some none
  | some (name, dataType, rest) => do
    let tail ← dropBytes? (width (trim fragment) - width rest) (trim fragment)
    let masked := Quoting.mask tail
    let unique : List Text := if hasPhrase ["UNIQUE"] masked then ["UNIQUE"] else []
    let default? ← strictDefault? tail masked
    let check? ← strictCheck? tail masked
    let reference? ← strictReference? tail masked
    pure (some {
      column := {
        name, dataType
        isPrimaryKey := hasPhrase ["PRIMARY", "KEY"] masked
        isNotNull := hasPhrase ["NOT", "NULL"] masked
        default?
        constraints := unique ++ check?.toList }
      reference? })

theorem strictDefault?_mask (s : Text) :
    strictDefault? s (Quoting.mask s) = some (defaultValue? s (Quoting.mask s)) := by
  rw [strictDefault?, defaultValue?]
  cases hfound : defaultMark? (Quoting.mask s) with
  | none => rfl
  | some found =>
    obtain ⟨rest, hrest⟩ := Option.isSome_iff_exists.1
      (isBoundary_iff.1 ((cutsBetween s).default found hfound).2)
    simp only [hrest, Option.bind_eq_bind, Option.bind_some, Option.pure_def]

theorem strictCheck?_of_found {u x masked : Text}
    (h : checkMark? masked = some ⟨width u, width (u ++ (x ++ ['('])), ()⟩) (v : Text) :
    strictCheck? (u ++ (x ++ ['('] ++ v)) masked =
      some ((group? v).map fun p => x ++ ['('] ++ p.1 ++ [')']) := by
  have hopening : dropBytes? (width (u ++ x)) (u ++ (x ++ ['('] ++ v)) = some ('(' :: v) := by
    have hsplit : u ++ (x ++ ['('] ++ v) = (u ++ x) ++ '(' :: v := by simp
    rw [hsplit, dropBytes?_width_append]
  have hmark : mark? '(' ('(' :: v) = some v := rfl
  simp only [strictCheck?, h, width_sub_paren, hopening, hmark, Option.bind_eq_bind, Option.bind_some]
  cases hgroup : group? v with
  | none => rfl
  | some p =>
    obtain ⟨inside, rest⟩ := p
    have hclose : width (u ++ x) + width ('(' :: inside) + 1 =
        width (u ++ (x ++ ['('] ++ inside ++ [')'])) := by
      have hparens : '('.utf8Size = 1 ∧ ')'.utf8Size = 1 := ⟨rfl, rfl⟩
      simp only [width_append, width, hparens.1, hparens.2]
      omega
    have hclause := cut?_append u (x ++ ['('] ++ inside ++ [')']) rest
    have htext : u ++ (x ++ ['('] ++ inside ++ [')'] ++ rest) = u ++ (x ++ ['('] ++ v) := by
      rw [group?_eq_append hgroup]
      simp
    rw [htext, ← hclose] at hclause
    simp only [hclause, Option.bind_some, Option.map_some, Option.pure_def]

theorem strictCheck?_mask (s : Text) :
    strictCheck? s (Quoting.mask s) = some (checkClause? s (Quoting.mask s)) := by
  cases hfound : checkMark? (Quoting.mask s) with
  | none => simp only [strictCheck?, checkClause?, hfound, Option.bind_eq_bind, Option.bind_none]
  | some found =>
    obtain ⟨u, w, gap, v, rfl, rfl, -, -⟩ := exists_of_checkMark? hfound
    rw [← List.append_assoc w] at hfound ⊢
    rw [strictCheck?_of_found hfound, checkClause?_of_found hfound]

/-- The search asks only about places between characters of the text. -/
theorem strictSearchFrom?_eq {α : Type} {read : Text → Option (α × Text)}
    {accept? : Nat → Option Bool} {accept : Nat → Bool} {before : Option Char} {passed offset : Nat}
    {s : Text} (h : ∀ u v, s = u ++ v → accept? (offset + width u) = some (accept (offset + width u))) :
    strictSearchFrom? read accept? before passed offset s =
      some (searchFrom? read accept before passed offset s) := by
  induction s generalizing before passed offset with
  | nil => rfl
  | cons c s ih =>
    have hlater : ∀ u v, s = u ++ v → accept? (offset + c.utf8Size + width u) =
        some (accept (offset + c.utf8Size + width u)) := by
      rintro u v rfl
      rw [Nat.add_assoc]
      exact h (c :: u) v rfl
    cases passed with
    | succ passed => exact ih hlater
    | zero =>
      have hhere : accept? offset = some (accept offset) := h [] (c :: s) rfl
      rw [strictSearchFrom?, searchFrom?]
      cases (if beginsWord before then read (c :: s) else none) with
      | none => exact ih hlater
      | some found =>
        simp only [hhere, Option.bind_eq_bind, Option.bind_some, ih hlater]
        cases accept offset <;> rfl

theorem strictReference?_mask (s : Text) :
    strictReference? s (Quoting.mask s) = some (inlineReference? s (Quoting.mask s)) := by
  have hask : ∀ u v, s = u ++ v →
      (dropBytes? (0 + width u) (Quoting.mask s)).map (beginsWith · "REFERENCES") =
        some ((dropBytes? (0 + width u) (Quoting.mask s)).any (beginsWith · "REFERENCES")) := by
    intro u v hs
    have hplace : IsBoundary (Quoting.mask s) (0 + width u) :=
      isBoundary_mask ⟨u, v, hs, Nat.zero_add _⟩
    obtain ⟨rest, hrest⟩ := Option.isSome_iff_exists.1 (isBoundary_iff.1 hplace)
    rw [hrest]
    rfl
  have hsearch : strictSearchFrom? referenceClause?
      (fun offset => (dropBytes? offset (Quoting.mask s)).map (beginsWith · "REFERENCES")) none 0 0 s =
      some (search? referenceClause?
        (fun offset => (dropBytes? offset (Quoting.mask s)).any (beginsWith · "REFERENCES")) s) :=
    strictSearchFrom?_eq hask
  rw [strictReference?, hsearch]
  rfl

theorem ColumnDeclaration.strict?_eq (fragment : Text) :
    strict? fragment = some (ofFragment? fragment) := by
  rw [strict?, ofFragment?]
  cases hhead : columnHead? (trim fragment) with
  | none => rfl
  | some head =>
    obtain ⟨name, dataType, tail⟩ := head
    obtain ⟨front, happend⟩ := suffix_of_columnHead? hhead
    have hcut : dropBytes? (width (trim fragment) - width tail) (trim fragment) = some tail := by
      rw [← happend, width_append, Nat.add_sub_cancel]
      exact dropBytes?_width_append front tail
    simp only [hcut, Option.bind_eq_bind, Option.bind_some, strictDefault?_mask, strictCheck?_mask,
      strictReference?_mask, Option.pure_def]

/-- With a mask that is a byte too long the cut falls inside the last character. -/
example : strictDefault? " 'é' DEFAULT é" " '   ' DEFAULT é" = none := by decide +kernel

/-- A mask has the bytes of its text: each character outside quoted spans and each quote of a span where
it was, and spaces for the rest. Masking it again changes nothing. So what is found on one side is cut on
the other between two characters, and the reading of a fragment never breaks off. -/
theorem mask_keeps_places :
    (∀ text : Text,
      (∃ ps, (∀ qs, Lexing [] text qs ↔ qs = ps) ∧
        Masks (ps.flatMap Piece.shown) text (Quoting.mask text)) ∧
      Quoting.mask (Quoting.mask text) = Quoting.mask text) ∧
    (∀ tail : Text, CutsBetween tail) ∧
    ∀ fragment : Text,
      ColumnDeclaration.strict? fragment = some (ColumnDeclaration.ofFragment? fragment) :=
  ⟨fun text => ⟨masks_lexing text, Quoting.mask_mask text⟩, cutsBetween, ColumnDeclaration.strict?_eq⟩

/-- An escape literal with a quote behind a backslash and a doubled one, and letters of two and three
bytes on both sides of the check. -/
theorem mask_keeps_places_umlauts :
    let tail : Text := " DEFAULT E'\\'ß''CHECK (' CHEC\u212A (\"ö\" > 'é') REFERENCES maße(größe)"
    let masked : Text := " DEFAULT E'    ''       ' CHEC\u212A (\"  \" > '  ') REFERENCES maße(größe)"
    let fragment : Text := "größe INT" ++ tail
    Quoting.mask tail = masked ∧ Quoting.mask masked = masked ∧
      (∃ ps, Lexing [] tail ps ∧ Masks (ps.flatMap Piece.shown) tail masked) ∧
      (checkMark? masked).map (fun found => (found.start, found.stop)) = some (26, 35) ∧
      IsBoundary tail 26 ∧ IsBoundary tail 35 ∧ ¬ IsBoundary tail 14 ∧
      ColumnDeclaration.strict? fragment = some (ColumnDeclaration.ofFragment? fragment) ∧
      (ColumnDeclaration.ofFragment? fragment).map (·.column.constraints) =
        some [("CHEC\u212A (\"ö\" > 'é')" : Text)] := by
  intro tail masked fragment
  have hmask : Quoting.mask tail = masked := by decide +kernel
  have hplaces : (checkMark? masked).map (fun found => (found.start, found.stop)) = some (26, 35) := by
    decide +kernel
  obtain ⟨found, hfound, hends⟩ := Option.map_eq_some_iff.1 hplaces
  obtain ⟨hstart, hstop⟩ := Prod.mk.inj hends
  obtain ⟨htext, hcuts, hstrict⟩ := mask_keeps_places
  obtain ⟨⟨ps, hlexing, hmasks⟩, hagain⟩ := htext tail
  obtain ⟨hbefore, -, hbehind⟩ := (hcuts tail).check found (hmask ▸ hfound)
  rw [hmask] at hmasks hagain
  exact ⟨hmask, hagain, ⟨ps, (hlexing ps).2 rfl, hmasks⟩, hplaces, hstart ▸ hbefore, hstop ▸ hbehind,
    by decide +kernel, hstrict fragment, by decide +kernel⟩

end SchemaDiagram.Sql
