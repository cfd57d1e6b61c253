import SchemaDiagram.Proofs.Declaration.Piece

set_option autoImplicit false

namespace SchemaDiagram.Declaration
open Sql Unicode Text

def SolidEnd (s : Text) : Prop := ∀ c, s.getLast? = some c → isBlank c = false

theorem solidEnd_of_solid {s : Text} (hs : ∀ c ∈ s, isBlank c = false) : SolidEnd s :=
  fun c hc => hs c (List.mem_of_getLast? hc)

theorem SolidEnd.append {s t : Text} (hs : SolidEnd s) (ht : SolidEnd t) : SolidEnd (s ++ t) := by
  intro c hc
  rw [List.getLast?_append] at hc
  cases hlast : t.getLast? with
  | none =>
    rw [hlast] at hc
    exact hs c hc
  | some d =>
    rw [hlast] at hc
    exact ht c (hlast.trans hc)

theorem SolidEnd.after {t : Text} (ht : SolidEnd t) (hne : t ≠ []) (s : Text) :
    SolidEnd (s ++ t) := by
  intro c hc
  rw [List.getLast?_append, List.getLast?_eq_some_getLast hne] at hc
  exact ht c ((List.getLast?_eq_some_getLast hne).trans hc)

theorem solidEnd_spacedPieces (k : Casing) (ps : List Piece) : SolidEnd (spacedPieces k ps) := by
  induction ps with
  | nil => exact nofun
  | cons p ps ih =>
    have htoken := p.isToken k
    have hcons : spacedPieces k (p :: ps) = ([' '] ++ p.text k) ++ spacedPieces k ps := rfl
    have hend : SolidEnd (p.text k) := fun c hc => htoken.getLast? hc
    rw [hcons]
    exact (hend.after htoken.nonempty [' ']).append ih

theorem solidEnd_spell (k : Casing) {w : Text} (hw : IsCapital w) (s : Text) :
    SolidEnd (s ++ k.spell w) := by
  have hplain := k.plain_spell hw
  exact (solidEnd_of_solid hplain.isBlank).after hplain.1 s

theorem solid_of_typeWord? {w : Text} (h : typeWord? w = some []) : ∀ c ∈ w, isBlank c = false := by
  intro c hc
  by_contra hblank
  have hpart := isTypePart_of_typeWord? h c hc
  rw [not_isTypePart_of_isBlank (by simpa using hblank)] at hpart
  cases hpart

namespace TypeWords
variable (k : Casing)

theorem exists_cons (t : TypeWords) : ∃ c s, t.text k = c :: s ∧ isBlank c = false := by
  have hspell : ∀ w : Text, IsCapital w → ∀ rest, ∃ c s, k.spell w ++ rest = c :: s ∧
      isBlank c = false := by
    intro w hw rest
    have hplain := k.plain_spell hw
    obtain ⟨c, s, hs⟩ := List.exists_cons_of_ne_nil hplain.1
    exact ⟨c, s ++ rest, by rw [hs]; rfl, hplain.isBlank c (by simp [hs])⟩
  cases t with
  | word text hword =>
    have hsolid := solid_of_typeWord? hword
    cases text with
    | nil => cases hword
    | cons c s => exact ⟨c, s, rfl, hsolid c List.mem_cons_self⟩
  | double => exact hspell _ (by decide) _
  | characterVarying => exact hspell _ (by decide) _
  | bitVarying => exact hspell _ (by decide) _
  | zoned stamp p? without => exact hspell _ (by cases stamp <;> decide) _

theorem solidEnd (t : TypeWords) : SolidEnd (t.text k) := by
  cases t with
  | word text hword => exact solidEnd_of_solid (solid_of_typeWord? hword)
  | double =>
    have hend := solidEnd_spell k (w := "PRECISION") (by decide) (k.spell "DOUBLE" ++ [' '])
    rwa [List.append_assoc] at hend
  | characterVarying =>
    have hend := solidEnd_spell k (w := "VARYING") (by decide) (k.spell "CHARACTER" ++ [' '])
    rwa [List.append_assoc] at hend
  | bitVarying =>
    have hend := solidEnd_spell k (w := "VARYING") (by decide) (k.spell "BIT" ++ [' '])
    rwa [List.append_assoc] at hend
  | zoned stamp p? without =>
    have hend := solidEnd_spell k (w := "ZONE") (by decide)
      (k.spell (if stamp then "TIMESTAMP" else "TIME") ++ (precisionText p? ++
        ' ' :: (k.spell (if without then "WITHOUT" else "WITH") ++ ' ' :: (k.spell "TIME" ++ [' ']))))
    simp only [List.append_assoc, List.cons_append, List.nil_append] at hend
    exact hend

end TypeWords

namespace ColumnType
variable (k : Casing) (t : ColumnType)

theorem exists_cons : ∃ c s, t.text k = c :: s ∧ isBlank c = false := by
  obtain ⟨c, s, hs, hc⟩ := t.words.exists_cons k
  exact ⟨c, s ++ (parameterText t.parameters? ++ arrayText t.arrays), by rw [text, hs]; rfl, hc⟩

theorem solidEnd : SolidEnd (t.text k) := by
  have hmark : ∀ c : Char, isBlank c = false → SolidEnd [c] := by
    intro c hc
    exact solidEnd_of_solid (List.forall_mem_singleton.2 hc)
  have hparameters : SolidEnd (parameterText t.parameters?) := by
    cases t.parameters? with
    | none => exact nofun
    | some s => exact (hmark ')' (by decide)).after (List.cons_ne_nil _ _) ('(' :: s.1)
  have harrays : SolidEnd (arrayText t.arrays) := by
    induction t.arrays with
    | nil => exact nofun
    | cons d ds ih =>
      exact ((hmark ']' (by decide)).after (List.cons_ne_nil _ _) ('[' :: d.text)).append ih
  exact (t.words.solidEnd k).append (hparameters.append harrays)

end ColumnType

theorem trim_text (k : Casing) (d : Declaration) : trim (d.text k) = d.text k := by
  obtain ⟨c, s, hname, hc⟩ := d.name.exists_cons
  obtain ⟨e, r, htype, -⟩ := d.dataType.exists_cons k
  have hend := (d.dataType.solidEnd k).append (solidEnd_spacedPieces k d.pieces)
  have htext : d.text k = (d.name.text ++ [' ']) ++ (d.dataType.text k ++ spacedPieces k d.pieces) := by
    rw [Declaration.text, List.append_assoc]
    rfl
  refine trim_of_ends ?_ ?_
  · intro d' hd
    rw [htext, hname] at hd
    cases hd
    exact hc
  · rw [htext]
    exact hend.after (by simp [htype]) _

theorem columnHead?_text (k : Casing) (d : Declaration) :
    columnHead? (d.text k) =
      some (d.name.content, d.dataType.text k, spacedPieces k d.pieces) := by
  obtain ⟨c, s, hs, hc⟩ := d.dataType.exists_cons k
  have hname := d.name.name? TableName.isNamePart_marks.2.2.2
    (d.dataType.text k ++ spacedPieces k d.pieces)
  have hblanks : blanks? (' ' :: (d.dataType.text k ++ spacedPieces k d.pieces)) =
      some (d.dataType.text k ++ spacedPieces k d.pieces) := by
    rw [blanks?, if_pos (by decide), hs, List.cons_append, skipBlanks_solid hc]
  have htype : dataType? (d.dataType.text k ++ spacedPieces k d.pieces) =
      some (d.dataType.text k, spacedPieces k d.pieces) :=
    d.dataType.dataType?_text (follows_pieces k d.modifiers)
  simp [columnHead?, Declaration.text, hname, hblanks, htype, d.name.normalizeName d.plain]

end SchemaDiagram.Declaration
