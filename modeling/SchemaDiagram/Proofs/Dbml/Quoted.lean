import Mathlib.Data.List.Nodup
import SchemaDiagram.Dbml.Document
import SchemaDiagram.Proofs.Characters
import SchemaDiagram.Proofs.Json.Document

/-!
Quoted strings and names are read back. A quoted string says its text, since the marks inside are
escaped (`unquoted?_eq_some_iff`), and the parts of a name hold no point, so the points of what is
written for it are its own (`splitAt_name`). So no two names of a schema are written alike
(`identifiers_distinct`).
-/

set_option autoImplicit false

namespace SchemaDiagram

namespace Text

theorem join_splitAt (m : Char) (s : Text) : join [m] (splitAt (· = m) s) = s := by
  induction s with
  | nil => rfl
  | cons c s ih =>
    obtain ⟨v, vs, hsplit⟩ : ∃ v vs, splitAt (· = m) s = v :: vs := ⟨_, _, rfl⟩
    rw [hsplit] at ih
    rw [splitAt_cons, hsplit]
    by_cases hc : c = m
    · rw [if_pos (by simpa using hc), join_cons [m] [] (List.cons_ne_nil v vs), ih, hc]
      rfl
    · rw [if_neg (by simpa using hc), List.modifyHead_cons]
      cases vs with
      | nil =>
        rw [join, List.intercalate_singleton] at ih ⊢
        rw [ih]
      | cons w ws =>
        rw [join_cons [m] _ (List.cons_ne_nil w ws)] at ih ⊢
        rw [List.cons_append, List.cons_append, ih]

end Text

namespace Dbml
open Text

/-- Reads up to a closing quote that ends the text. Only quotes and backslashes are escaped. -/
def unescaped? : Text → Option Text
  | [] => none
  | ['"'] => some []
  | ['\\'] => none
  | '\\' :: c :: s => if c = '\\' || c = '"' then (unescaped? s).map (c :: ·) else none
  | c :: s => if c = '"' then none else (unescaped? s).map (c :: ·)

def unquoted? : Text → Option Text
  | '"' :: s => unescaped? s
  | _ => none

theorem escapeChar_mark {c : Char} (h : (c = '\\' || c = '"') = true) :
    escapeChar c = ['\\', c] := if_pos (by simpa using h)

theorem escapeChar_plain {c : Char} (hslash : c ≠ '\\') (hquote : c ≠ '"') :
    escapeChar c = [c] := if_neg (by simp [hslash, hquote])

theorem unescaped?_plain {c : Char} (hslash : c ≠ '\\') (hquote : c ≠ '"') (s : Text) :
    unescaped? (c :: s) = (unescaped? s).map (c :: ·) := by
  rw [unescaped?.eq_def]
  split <;> simp_all

theorem unescaped?_escaped (s : Text) : unescaped? (s.flatMap escapeChar ++ ['"']) = some s := by
  induction s with
  | nil => rfl
  | cons c s ih =>
    rw [List.flatMap_cons, List.append_assoc]
    by_cases hmark : (c = '\\' || c = '"') = true
    · rw [escapeChar_mark hmark, List.cons_append, List.cons_append, unescaped?, if_pos hmark,
        List.nil_append, ih, Option.map_some]
    · obtain ⟨hslash, hquote⟩ : c ≠ '\\' ∧ c ≠ '"' := by simpa using hmark
      rw [escapeChar_plain hslash hquote, List.singleton_append, unescaped?_plain hslash hquote, ih,
        Option.map_some]

theorem eq_escaped_of_unescaped? {t s : Text} (h : unescaped? t = some s) :
    t = s.flatMap escapeChar ++ ['"'] := by
  fun_induction unescaped? t generalizing s with
  | case1 => cases h
  | case2 =>
    cases h
    rfl
  | case3 => cases h
  | case4 c t hmark ih =>
    obtain ⟨s, hs, rfl⟩ := Option.map_eq_some_iff.1 h
    rw [ih hs, List.flatMap_cons, escapeChar_mark hmark]
    rfl
  | case5 => cases h
  | case6 => cases h
  | case7 c t hlast hslash hescaped hquote ih =>
    obtain ⟨s, hs, rfl⟩ := Option.map_eq_some_iff.1 h
    have hne : c ≠ '\\' := by
      rintro rfl
      cases t with
      | nil => exact hslash rfl rfl
      | cons d t => exact hescaped d t rfl rfl
    rw [ih hs, List.flatMap_cons, escapeChar_plain hne hquote]
    rfl

theorem unquoted?_eq_some_iff {t s : Text} : unquoted? t = some s ↔ t = quoted s := by
  constructor
  · intro h
    unfold unquoted? at h
    split at h
    · rw [eq_escaped_of_unescaped? h]
      rfl
    · cases h
  · rintro rfl
    exact unescaped?_escaped s

def readPart? (t : Text) : Option Text := if isPlain t then some t else unquoted? t

def readName? (t : Text) : Option Text :=
  ((splitAt (· = '.') t).mapM readPart?).map (join ['.'])

def endpoint (table column : Text) : Text := name table ++ ['.'] ++ name column

def readEndpoint? (t : Text) : Option (Text × Text) := do
  let parts ← (splitAt (· = '.') t).mapM readPart?
  let column ← parts.getLast?
  pure (join ['.'] parts.dropLast, column)

/-- A relationship is written between its two endpoints, and these are read back. -/
theorem relationshipLine_eq (r : Relationship) :
    relationshipLine r = "Ref: ".toList ++ endpoint r.fromTable r.fromColumn ++ " > ".toList ++
      endpoint r.target.table r.target.column := by
  unfold relationshipLine endpoint
  generalize "Ref: ".toList = lead, " > ".toList = arrow
  simp only [List.append_assoc]

theorem readPart?_namePart (s : Text) : readPart? (namePart s) = some s := by
  unfold namePart
  split
  · rename_i hplain
    rw [readPart?, if_pos hplain]
  · have hquote : isPlain (quoted s) = false := rfl
    rw [readPart?, hquote, unquoted?_eq_some_iff.2 rfl]
    rfl

theorem mapM_readPart? (parts : List Text) :
    (parts.map namePart).mapM readPart? = some parts := by
  induction parts with
  | nil => rfl
  | cons s parts ih => simp [readPart?_namePart, ih]

theorem not_mem_namePart {m : Char} (hslash : m ≠ '\\') (hquote : m ≠ '"') {s : Text} (h : m ∉ s) :
    m ∉ namePart s := by
  have hescaped : m ∉ s.flatMap escapeChar := by
    intro hmem
    obtain ⟨c, hc, hm⟩ := List.mem_flatMap.1 hmem
    unfold escapeChar at hm
    split at hm
    · rcases List.mem_pair.1 hm with rfl | rfl
      · exact hslash rfl
      · exact h hc
    · exact h (List.mem_singleton.1 hm ▸ hc)
  unfold namePart
  split
  · exact h
  · simpa [quoted, hquote] using hescaped

theorem splitAt_name (s : Text) :
    splitAt (· = '.') (name s) = (splitAt (· = '.') s).map namePart := by
  refine splitAt_join_mark (by decide) (by simp [splitAt]) ?_
  intro part hpart c hc
  obtain ⟨p, hp, rfl⟩ := List.mem_map.1 hpart
  have hpoint : '.' ∉ p := fun hmem => by simpa using not_of_mem_splitAt hp '.' hmem
  exact decide_eq_false (ne_of_mem_of_not_mem hc (not_mem_namePart (by decide) (by decide) hpoint))

theorem readName?_name (s : Text) : readName? (name s) = some s := by
  rw [readName?, splitAt_name, mapM_readPart?, Option.map_some, join_splitAt]

theorem name_injective : Function.Injective name := by
  intro s t h
  have hread := readName?_name s
  rw [h, readName?_name] at hread
  exact (Option.some.inj hread).symm

theorem readEndpoint?_endpoint (table : Text) {column : Text} (h : '.' ∉ column) :
    readEndpoint? (endpoint table column) = some (table, column) := by
  have hcolumn : splitAt (· = '.') column = [column] :=
    splitAt_of_none fun c hc => decide_eq_false (ne_of_mem_of_not_mem hc h)
  have hparts : splitAt (· = '.') (endpoint table column) =
      (splitAt (· = '.') table ++ [column]).map namePart := by
    rw [endpoint, List.append_assoc, List.singleton_append, splitAt_append_cons (by decide),
      splitAt_name, splitAt_name, hcolumn, List.map_append]
  rw [readEndpoint?, hparts, mapM_readPart?]
  simp [join_splitAt]

/-- A name is read back from what is written for it, and so is a column without a point, together with
its table. So the tables of a schema are written differently, and so are columns of different names,
by themselves and with their tables. -/
theorem identifiers_distinct :
    (∀ s, readName? (name s) = some s) ∧
    (∀ table column, '.' ∉ column → readEndpoint? (endpoint table column) = some (table, column)) ∧
    ∀ m, Schema.Built m → ∀ t ∈ m.tables, ∀ u ∈ m.tables, (name t.name = name u.name → t = u) ∧
      ∀ c ∈ t.columns, ∀ d ∈ u.columns, (name c.name = name d.name → c.name = d.name) ∧
        ('.' ∉ c.name → '.' ∉ d.name → endpoint t.name c.name = endpoint u.name d.name →
          t = u ∧ c.name = d.name) := by
  refine ⟨readName?_name, fun table column h => readEndpoint?_endpoint table h, ?_⟩
  intro m hm t ht u hu
  have htable : t.name = u.name → t = u :=
    fun hname => List.inj_on_of_nodup_map hm.nodup_names ht hu hname
  refine ⟨fun hname => htable (name_injective hname), ?_⟩
  intro c _ d _
  refine ⟨fun hname => name_injective hname, ?_⟩
  intro hc hd hsame
  have hread := readEndpoint?_endpoint t.name hc
  rw [hsame, readEndpoint?_endpoint u.name hd] at hread
  obtain ⟨htables, hcolumns⟩ := Prod.mk.inj (Option.some.inj hread)
  exact ⟨htable htables.symm, hcolumns.symm⟩

/-- A column name with a point could be read as a part of the table's name. -/
example : endpoint "t" "a.b" = endpoint "t.a" "b" := by decide

end Dbml

end SchemaDiagram
