import Mathlib.Data.List.DropRight
import SchemaDiagram.Proofs.Body.KeyClause
import SchemaDiagram.Proofs.Substitution.Head

set_option autoImplicit false

namespace SchemaDiagram.Sql
open Text

theorem unqualified_eq (s : Text) : unqualified s = s.rtakeWhile (· ≠ '.') := by
  have hlast : ∀ (pieces : List Text) (last : Text), (pieces ++ [last]).getLastD [] = last :=
    fun pieces last => by rw [List.getLastD_eq_getLast?, List.getLast?_concat, Option.getD_some]
  induction s using List.reverseRecOn with
  | nil => rfl
  | append_singleton s c ih =>
    by_cases hc : c = '.'
    · have hcut : splitAt (· = '.') (s ++ [c]) = splitAt (· = '.') s ++ [[]] :=
        splitAt_append_cons (decide_eq_true hc) s []
      rw [unqualified, hcut, hlast, List.rtakeWhile_concat_neg _ _ _ (by simp [hc])]
    · obtain ⟨pieces, last, hpieces⟩ := exists_splitAt_append (· = '.') s
      have hs := hpieces [] (List.forall_mem_nil _)
      rw [List.append_nil, List.append_nil] at hs
      have hcut := hpieces [c] (List.forall_mem_singleton.2 (decide_eq_false hc))
      rw [unqualified, hs, hlast] at ih
      rw [unqualified, hcut, hlast, List.rtakeWhile_concat_pos _ _ _ (by simp [hc]), ih]

end SchemaDiagram.Sql

namespace SchemaDiagram.Declaration
open Sql Text Unicode

structure BareName where
  text : Text
  isName : bareName? text = some (text, [])

namespace BareName
variable (n : BareName)

def part : Part := .bare n.text n.isName

theorem not_mem {c : Char} (hc : isNamePart c = false) : c ∉ n.text := by
  obtain ⟨-, -, -, -, hbare⟩ := isBare_of_bareName? n.isName
  exact fun hmem => hbare.ne hc c hmem rfl

theorem plain : n.part.Plain := n.not_mem (by decide)

theorem normalizeName : normalizeName n.text = n.text := by
  obtain ⟨c, r, hcons, -, hbare⟩ := isBare_of_bareName? n.isName
  exact normalizeName_of_isBare hbare (by simp [hcons])

theorem ne_nil : n.text ≠ [] := by
  obtain ⟨c, r, hcons, -, -⟩ := isBare_of_bareName? n.isName
  simp [hcons]

end BareName

structure Item where
  lead : Text
  name : BareName
  trail : Text
  blank : ∀ c ∈ lead ++ trail, isBlank c = true

namespace Item
variable (i : Item)

def text : Text := i.lead ++ (i.name.text ++ i.trail)

theorem normalizeName : Sql.normalizeName i.text = i.name.text := by
  obtain ⟨hlead, htrail⟩ := List.forall_mem_append.1 i.blank
  rw [text, normalizeName_padded hlead htrail, i.name.normalizeName]

theorem not_mem {c : Char} (hname : isNamePart c = false) (hblank : isBlank c = false) :
    c ∉ i.text := by
  obtain ⟨hlead, htrail⟩ := List.forall_mem_append.1 i.blank
  have hfree : ∀ {s : Text}, (∀ b ∈ s, isBlank b = true) → c ∉ s :=
    fun hs hmem => ne_of_isBlank hblank (hs c hmem) rfl
  simp [text, hfree hlead, hfree htrail, i.name.not_mem hname]

end Item

structure ItemList where
  first : Item
  others : List Item

namespace ItemList
variable (l : ItemList)

def items : List Item := l.first :: l.others

def text : Text := join [','] (l.items.map Item.text)

def names : List Text := l.items.map (·.name.text)

def listing : Listing l.first.name.part where
  front := []
  lead := l.first.lead
  trail := l.first.trail
  back := l.others.map Item.text
  blank := l.first.blank
  plain := by
    refine List.forall_mem_cons.2 ⟨?_, List.forall_mem_map.2 fun i _ => ?_⟩
    · exact ⟨l.first.name.not_mem (by decide), l.first.name.not_mem (by decide)⟩
    · exact ⟨i.not_mem (by decide) (by decide), i.not_mem (by decide) (by decide)⟩
  named := List.forall_mem_map.2 fun i _ => by
    rw [i.normalizeName]
    exact i.name.ne_nil

theorem text_listing : l.listing.text = l.text := rfl

theorem names_listing : l.listing.names = l.names := by
  have hothers : (l.others.map Item.text).map normalizeName = l.others.map (·.name.text) := by
    rw [List.map_map]
    exact List.map_congr_left fun i _ => i.normalizeName
  have hfirst : normalizeName l.first.name.part.text = l.first.name.text :=
    l.first.name.normalizeName
  exact congrArg₂ List.cons hfirst hothers

end ItemList

/-- The name without its quotes; a point in them is taken for one between two parts. -/
def keptName (n : Part) : Text := if n.Plain then n.content else normalizeName n.text

theorem keptName_eq (n : Part) : keptName n = normalizeName n.text := by
  rw [keptName]
  split
  · rename_i hplain
    rw [n.normalizeName hplain]
  · rfl

/-- `FOREIGN KEY (…) REFERENCES table (…)` with any text behind it, and `CONSTRAINT name` in front
of it or not. -/
structure ForeignKeyClause where
  casing : Casing
  label? : Option Part
  spaced : Bool
  columns : ItemList
  spacedReferences : Bool
  schema? : Option BareName
  table : BareName
  spacedTargets : Bool
  targets : ItemList
  tail : Text

namespace ForeignKeyClause
variable (c : ForeignKeyClause)

def target : Text :=
  match c.schema? with
  | some s => s.text ++ '.' :: c.table.text
  | none => c.table.text

def front : Text :=
  c.casing.spell "FOREIGN" ++ ' ' :: (c.casing.spell "KEY" ++
    (space c.spaced ++ '(' :: (c.columns.text ++ ')' ::
      (space c.spacedReferences ++ (c.casing.spell "REFERENCES" ++ ' ' :: (c.target ++
        (space c.spacedTargets ++ '(' :: c.targets.text)))))))

def definition : Text := c.front ++ ')' :: c.tail

def text : Text := labelText c.casing c.label? ++ c.definition

/-- The name of the keys: the one that is given, or the last part of the name of the table, the
columns and `fkey`. -/
def constraintName (table : Text) : Text :=
  match c.label? with
  | some n => keptName n
  | none => join ['_'] ([table.rtakeWhile (· ≠ '.')] ++ c.columns.names ++ [("fkey" : Text)])

def raw : Text :=
  match c.label? with
  | some n => "CONSTRAINT" ++ ' ' :: (keptName n ++ ' ' :: trimEnd c.definition)
  | none => trimEnd c.definition

def key : KeyClause c.columns.first.name.part where
  casing := c.casing
  label? := c.label?
  spaced := c.spaced
  list := c.columns.listing

def references : References where
  spaced := c.spacedReferences
  table := ⟨c.schema?.map BareName.part, c.table.part⟩
  spacedList := c.spacedTargets
  column := c.targets.first.name.part
  list := c.targets.listing
  tail := c.tail

theorem text_references : c.references.table.text = c.target := by
  rw [target, references, TableName.text]
  cases c.schema? with
  | none => rfl
  | some s => rfl

theorem definition_key :
    c.key.definition "FOREIGN" (c.references.text c.casing) = c.definition := by
  rw [KeyClause.definition, References.text, text_references, definition, front]
  simp [key, references, ItemList.text_listing]

theorem text_key : c.key.text "FOREIGN" (c.references.text c.casing) = c.text := by
  rw [KeyClause.text, definition_key]
  rfl

def trimmed : ForeignKeyClause := { c with tail := trimEnd c.tail }

theorem trimEnd_definition : trimEnd c.definition = c.trimmed.definition :=
  trimEnd_append_mark (by decide) c.front c.tail

theorem trim_text : trim c.text = c.trimmed.text := by
  have hstart : trimStart c.text = c.text := by
    have hword : ∀ {w : Text}, IsCapital w → ∀ t,
        trimStart (c.casing.spell w ++ t) = c.casing.spell w ++ t :=
      fun hw t => (c.casing.plain_spell hw).skipBlanks t
    rw [text]
    cases c.label? with
    | none =>
      rw [labelText, List.nil_append, definition, front, List.append_assoc]
      exact hword (by decide) _
    | some n =>
      rw [labelText, List.append_assoc]
      exact hword (by decide) _
  have hend := trimEnd_append_mark (by decide : isBlank ')' = false)
    (labelText c.casing c.label? ++ c.front) c.tail
  rw [List.append_assoc, List.append_assoc] at hend
  rw [trim, hstart]
  exact hend

theorem trim_text_trimmed : trim c.trimmed.text = c.trimmed.text := by
  have htwice : c.trimmed.trimmed = c.trimmed := by
    rw [trimmed, trimmed, show trimEnd (trimEnd c.tail) = trimEnd c.tail from
      List.rdropWhile_idempotent isBlank c.tail]
  rw [trim_text, htwice]

theorem constraintName_key (table : Text) :
    c.key.constraintName table = c.constraintName table := by
  rw [KeyClause.constraintName, constraintName, key]
  cases c.label? with
  | some n => exact (keptName_eq n).symm
  | none =>
    have hnames : c.columns.names ≠ [] := List.cons_ne_nil _ _
    rw [ItemList.names_listing, join_append (by simp) (by simp),
      join_append (List.cons_ne_nil _ _) hnames, ← unqualified_eq]
    simp [foreignKeyName, join]

theorem raw_key :
    c.trimmed.key.raw "FOREIGN" (c.trimmed.references.text c.trimmed.casing) = c.raw := by
  rw [KeyClause.raw, definition_key, ← trimEnd_definition, raw,
    show c.trimmed.key.label? = c.label? from rfl]
  cases c.label? with
  | none => rfl
  | some n => simp only [keptName_eq]

theorem keys_key (n : Text) :
    c.key.keys c.references n =
      (c.columns.names.zip c.targets.names).map fun q => ⟨q.1, ⟨c.target, q.2⟩, n⟩ := by
  have htarget : normalizeName c.references.table.text = c.target := by
    have hplain : ∀ p ∈ c.references.table.parts, p.Plain := by
      refine List.forall_mem_append.2 ⟨?_, List.forall_mem_singleton.2 c.table.plain⟩
      intro p hp
      obtain ⟨s, -, rfl⟩ := Option.map_eq_some_iff.1 (Option.mem_toList.1 hp)
      exact s.plain
    rw [c.references.table.normalizeName hplain, target, references, TableName.content]
    cases c.schema? with
    | none => rfl
    | some s => rfl
  have hcolumns : c.key.list.names = c.columns.names := c.columns.names_listing
  have htargets : c.references.list.names = c.targets.names := c.targets.names_listing
  rw [KeyClause.keys, htarget, hcolumns, htargets, ← List.map_uncurry_zip_eq_zipWith]
  rfl

theorem ofFragment?_eq (table : Text) :
    TableConstraint.ofFragment? table c.text =
      some (if c.columns.names.length = c.targets.names.length then
          .foreignKeys (c.key.keys c.references (c.constraintName table))
        else .other c.raw) := by
  have htrim := c.trim_text_trimmed
  have htext : TableConstraint.ofFragment? table c.text =
      TableConstraint.ofFragment? table c.trimmed.text := by
    simp only [TableConstraint.ofFragment?, c.trim_text, htrim]
  rw [← text_key] at htrim
  have hcolumns : c.trimmed.key.list.names = c.columns.names := c.columns.names_listing
  have htargets : c.trimmed.references.list.names = c.targets.names := c.targets.names_listing
  have hname : c.trimmed.key.constraintName table = c.constraintName table :=
    c.trimmed.constraintName_key table
  have hraw : c.trimmed.key.raw "FOREIGN" (c.trimmed.references.text c.trimmed.key.casing) =
      c.raw := c.raw_key
  have hforeign := c.trimmed.key.ofFragment?_foreign c.trimmed.references htrim table
  rw [hcolumns, htargets, hname, hraw] at hforeign
  rw [htext, ← text_key]
  exact hforeign

/-- A clause makes one key for each column, which points to the column at its place in the second
list, and makes no key where the lists differ in length. -/
theorem ofFragment?_pairs (table : Text) :
    (c.columns.names.length = c.targets.names.length → ∃ keys,
      TableConstraint.ofFragment? table c.text = some (.foreignKeys keys) ∧
      keys.map (·.column) = c.columns.names ∧
      keys.map (·.target) = c.targets.names.map (⟨c.target, ·⟩) ∧
      ∀ key ∈ keys, key.constraintName = c.constraintName table) ∧
    (c.columns.names.length ≠ c.targets.names.length →
      TableConstraint.ofFragment? table c.text = some (.other c.raw)) := by
  have hread := c.ofFragment?_eq table
  constructor
  · intro hlength
    refine ⟨_, hread.trans (by rw [if_pos hlength]), ?_, ?_, ?_⟩
    · rw [keys_key, List.map_map]
      exact List.map_fst_zip hlength.le
    · have hsecond := List.map_snd_zip hlength.ge
      refine Eq.trans ?_ (congrArg (List.map (⟨c.target, ·⟩ : Text → Reference)) hsecond)
      rw [keys_key, List.map_map, List.map_map]
      rfl
    · rw [keys_key]
      exact List.forall_mem_map.2 fun _ _ => rfl
  · intro hlength
    rw [hread, if_neg hlength]

/-- Two columns with blanks of several kinds around them, and an action behind the lists. -/
theorem ofFragment?_pairs_action :
    ∃ c : ForeignKeyClause,
      c.text = "FOREIGN KEY (b,\n\ta ) REFERENCES shop.lines ( x ,y) ON DELETE CASCADE " ∧
      c.columns.names.length = c.targets.names.length ∧ ∃ keys,
        TableConstraint.ofFragment? "shop.orders" c.text = some (.foreignKeys keys) ∧
        keys.map (·.column) = ["b", "a"] ∧
        keys.map (·.target) = [⟨"shop.lines", "x"⟩, ⟨"shop.lines", "y"⟩] ∧
        ∀ key ∈ keys, key.constraintName = "orders_b_a_fkey" := by
  let c : ForeignKeyClause := {
    casing := fun _ => false
    label? := none
    spaced := true
    columns :=
      ⟨⟨[], ⟨"b", by decide +kernel⟩, [], by simp⟩,
        [⟨"\n\t", ⟨"a", by decide +kernel⟩, " ", by decide⟩]⟩
    spacedReferences := true
    schema? := some ⟨"shop", by decide +kernel⟩
    table := ⟨"lines", by decide +kernel⟩
    spacedTargets := true
    targets :=
      ⟨⟨" ", ⟨"x", by decide +kernel⟩, " ", by decide⟩,
        [⟨[], ⟨"y", by decide +kernel⟩, [], by simp⟩]⟩
    tail := " ON DELETE CASCADE " }
  have hname : c.constraintName "shop.orders" = "orders_b_a_fkey" := by decide
  obtain ⟨keys, hread, hcolumns, htargets, hnames⟩ := (c.ofFragment?_pairs "shop.orders").1 rfl
  exact ⟨c, by decide, rfl, keys, hread, hcolumns, htargets, fun k hk => (hnames k hk).trans hname⟩

end ForeignKeyClause

end SchemaDiagram.Declaration
