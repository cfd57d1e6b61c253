import SchemaDiagram.Proofs.Body.Name

/-!
Key clauses of a table. Their lists end at the first closing parenthesis and are cut at every comma,
so a name is listed as itself where it holds neither; the blanks around it and its quotes go the same
way as in the declaration of a column. `ofFragment_primary` and `ofFragment_foreign` say which keys a
clause makes.
-/

set_option autoImplicit false

namespace SchemaDiagram.Sql
open Text Unicode

theorem normalizeName_padded {lead trail : Text} (hlead : ∀ c ∈ lead, isBlank c = true)
    (htrail : ∀ c ∈ trail, isBlank c = true) (s : Text) :
    normalizeName (lead ++ (s ++ trail)) = normalizeName s := by
  have hpoint : ∀ c : Char, isBlank c = true → decide (c = '.') = false :=
    fun c hc => decide_eq_false (ne_of_isBlank (by decide) hc)
  have hfront : ∀ t : Text, normalizeName (lead ++ t) = normalizeName t := by
    intro t
    clear htrail
    induction lead with
    | nil => rfl
    | cons b lead ih =>
      obtain ⟨hb, hlead⟩ := List.forall_mem_cons.1 hlead
      obtain ⟨p, ps, hpieces⟩ : ∃ p ps, splitAt (· = '.') (lead ++ t) = p :: ps := ⟨_, _, rfl⟩
      rw [← ih hlead, normalizeName, normalizeName, List.cons_append, splitAt_cons,
        hpoint b hb, if_neg Bool.false_ne_true, hpieces, List.modifyHead_cons, List.map_cons,
        List.map_cons, show b :: p = [b] ++ p from rfl,
        trim_blank_append (List.forall_mem_singleton.2 hb)]
  obtain ⟨pieces, last, hpieces⟩ := exists_splitAt_append (· = '.') s
  have hs := hpieces [] (List.forall_mem_nil _)
  rw [List.append_nil, List.append_nil] at hs
  rw [hfront, normalizeName, normalizeName, hs, hpieces trail fun c hc => hpoint c (htrail c hc),
    List.map_append, List.map_append, List.map_singleton, List.map_singleton,
    trim_append_blank htrail]

end SchemaDiagram.Sql

namespace SchemaDiagram.Declaration
open Sql Text Unicode

theorem solidEnd_trim (s : Text) : SolidEnd (trim s) := by
  intro c hc
  have hhead := List.head?_dropWhile_not isBlank (trimStart s).reverse
  rw [trim, trimEnd, List.getLast?_reverse] at hc
  rw [hc] at hhead
  exact hhead

theorem Part.stripQuotes_ne_nil (p : Part) : Sql.stripQuotes p.text ≠ [] := by
  rw [p.stripQuotes]
  cases p with
  | bare text h =>
    obtain ⟨c, r, rfl, -, -⟩ := isBare_of_bareName? h
    exact List.cons_ne_nil c r
  | quoted inside hne hquote => exact hne

theorem Part.normalizeName_ne_nil (p : Part) : Sql.normalizeName p.text ≠ [] := by
  by_cases hp : p.Plain
  · rw [p.normalizeName hp, ← p.stripQuotes]
    exact p.stripQuotes_ne_nil
  · -- A point stays between the two parts around it.
    have hpoint : '.' ∈ p.text := not_not.1 hp
    obtain ⟨u, v, huv⟩ := List.append_of_mem hpoint
    obtain ⟨q, qs, hleft⟩ : ∃ q qs, splitAt (· = '.') u = q :: qs := ⟨_, _, rfl⟩
    obtain ⟨r, rs, hright⟩ : ∃ r rs, splitAt (· = '.') v = r :: rs := ⟨_, _, rfl⟩
    rw [Sql.normalizeName, huv, splitAt_append_cons (by decide), hleft, hright, List.map_append,
      join_append (by simp) (by simp)]
    simp

/-- A list of names between commas, the given one among them with blanks around it. -/
structure Listing (p : Part) where
  front : List Text
  lead : Text
  trail : Text
  back : List Text
  blank : ∀ c ∈ lead ++ trail, isBlank c = true
  plain : ∀ item ∈ front ++ p.text :: back, ',' ∉ item ∧ ')' ∉ item
  named : ∀ item ∈ front ++ back, normalizeName item ≠ []

namespace Listing
variable {p : Part} (l : Listing p)

def items : List Text := l.front ++ (l.lead ++ (p.text ++ l.trail)) :: l.back

def text : Text := join [','] l.items

def names : List Text :=
  l.front.map normalizeName ++ normalizeName p.text :: l.back.map normalizeName

theorem mem_names : normalizeName p.text ∈ l.names :=
  List.mem_append_right _ List.mem_cons_self

theorem plain_items {m : Char} (hm : isBlank m = false)
    (hplain : ∀ item ∈ l.front ++ p.text :: l.back, m ∉ item) : ∀ item ∈ l.items, m ∉ item := by
  obtain ⟨hlead, htrail⟩ := List.forall_mem_append.1 l.blank
  have hfree : ∀ {s : Text}, (∀ c ∈ s, isBlank c = true) → m ∉ s :=
    fun hs hmem => ne_of_isBlank hm (hs m hmem) rfl
  intro item hitem
  rcases List.mem_append.1 hitem with hfront | hrest
  · exact hplain item (List.mem_append_left _ hfront)
  rcases List.mem_cons.1 hrest with rfl | hback
  · have hname := hplain p.text (List.mem_append_right _ List.mem_cons_self)
    simp [hfree hlead, hfree htrail, hname]
  · exact hplain item (List.mem_append_right _ (List.mem_cons_of_mem _ hback))

theorem close_not_mem_text : ')' ∉ l.text := by
  have hitems := l.plain_items (m := ')') (by decide) fun item hitem => (l.plain item hitem).2
  have hsubset : l.text ⊆ ',' :: l.items.flatten := by
    refine join_subset (by simp) ?_
    exact fun item hitem c hc => List.mem_cons_of_mem ',' (List.mem_flatten_of_mem hitem hc)
  intro hmem
  rcases List.mem_cons.1 (hsubset hmem) with hcomma | hflat
  · exact absurd hcomma (by decide)
  · obtain ⟨item, hitem, hclose⟩ := List.mem_flatten.1 hflat
    exact hitems item hitem hclose

theorem nameList_text : nameList l.text = l.names := by
  have hcut : splitAt (· = ',') l.text = l.items := by
    have hitems := l.plain_items (m := ',') (by decide) fun item hitem => (l.plain item hitem).1
    refine splitAt_join_mark (by decide) (by simp [items]) ?_
    exact fun item hitem c hc => decide_eq_false (ne_of_mem_of_not_mem hc (hitems item hitem))
  obtain ⟨hlead, htrail⟩ := List.forall_mem_append.1 l.blank
  have hnames : l.items.map normalizeName = l.names := by
    rw [items, names, List.map_append, List.map_cons, normalizeName_padded hlead htrail]
  have hall : ∀ n ∈ l.names, (!n.isEmpty) = true := by
    obtain ⟨hfront, hback⟩ := List.forall_mem_append.1 l.named
    have hempty : ∀ {n : Text}, n ≠ [] → (!n.isEmpty) = true := fun hn => by simpa using hn
    refine List.forall_mem_append.2 ⟨?_, List.forall_mem_cons.2 ⟨hempty p.normalizeName_ne_nil, ?_⟩⟩
    · exact List.forall_mem_map.2 fun item hitem => hempty (hfront item hitem)
    · exact List.forall_mem_map.2 fun item hitem => hempty (hback item hitem)
  rw [nameList, hcut, hnames, List.filter_eq_self.2 hall]

end Listing

theorem Casing.clause?_spell (k : Casing) {w : Text} (hw : ∀ c ∈ w, c.isUpper = true) {c : Char}
    (hc : isBlank c = false) (s : Text) : clause? [w] (k.spell w ++ ' ' :: c :: s) = some (c :: s) := by
  simp [clause?, k.keyword?_spell_self hw, blanks?_space (skipBlanks_solid hc s)]

def space (b : Bool) : Text := if b then [' '] else []

theorem endsWord_space_paren (b : Bool) (s : Text) : endsWord (space b ++ '(' :: s) = true := by
  have hparen : isWordChar '(' = false := by decide
  cases b <;> simp [space, endsWord, hparen]

theorem parenthesized?_space (b : Bool) {s : Text} (hs : ')' ∉ s) (r : Text) :
    parenthesized? (space b ++ '(' :: (s ++ ')' :: r)) = some (s, r) := by
  cases b <;> exact parenthesized?_of_not_mem hs r

def labelText (k : Casing) : Option Part → Text
  | some name => k.spell "CONSTRAINT" ++ ' ' :: (name.text ++ [' '])
  | none => []

def keyWords : List Text := ["PRIMARY", "FOREIGN"]

structure KeyClause (p : Part) where
  casing : Casing
  label? : Option Part
  spaced : Bool
  list : Listing p

namespace KeyClause
variable {p : Part} (k : KeyClause p) {word rest : Text}

def definition (word rest : Text) : Text :=
  k.casing.spell word ++ ' ' :: (k.casing.spell "KEY" ++
    (space k.spaced ++ '(' :: (k.list.text ++ ')' :: rest)))

def text (word rest : Text) : Text := labelText k.casing k.label? ++ k.definition word rest

/-- What is kept of the clause: its definition as it stands, behind the name as it was read. -/
def raw (word rest : Text) : Text :=
  match k.label? with
  | some name => "CONSTRAINT" ++ ' ' :: (normalizeName name.text ++ ' ' :: k.definition word rest)
  | none => k.definition word rest

theorem text_ne_nil : k.text word rest ≠ [] := by
  simp [text, definition]

theorem phrase?_definition (hword : IsCapital word) :
    phrase? [word, "KEY"] (k.definition word rest) =
      some (space k.spaced ++ '(' :: (k.list.text ++ ')' :: rest)) :=
  phrase?_spell k.casing hword (by decide) _

theorem phrase?_definition_none {first : Text} (hfirst : ∀ c ∈ first, c.isUpper = true)
    (hword : IsCapital word) (hnone : keyword? first word = none) :
    phrase? [first, "KEY"] (k.definition word rest) = none :=
  phrase?_spell_none k.casing hfirst hword hnone "KEY" (endsWord_space _)

theorem classes_of_mem_keyWords (hword : word ∈ keyWords) :
    IsCapital word ∧ [word, ("KEY" : Text)] ∈ constraintWords ∧ keyword? "CONSTRAINT" word = none := by
  have hwords : ∀ w ∈ keyWords, IsCapital w ∧ [w, ("KEY" : Text)] ∈ constraintWords ∧
      keyword? "CONSTRAINT" w = none := by decide
  exact hwords word hword

theorem definition_eq_cons (hword : IsCapital word) (rest : Text) :
    ∃ c s, k.definition word rest = c :: s ∧ isBlank c = false := by
  have hplain := k.casing.plain_spell hword
  obtain ⟨c, s, hs⟩ := List.exists_cons_of_ne_nil hplain.1
  exact ⟨c, _, by rw [definition, hs]; rfl, hplain.isBlank c (by simp [hs])⟩

theorem ofFragment?_definition (hword : word ∈ keyWords)
    (htrim : trim (k.definition word rest) = k.definition word rest) (table : Text) :
    TableConstraint.ofFragment? table (k.definition word rest) =
      some (.ofDefinition table none (k.definition word rest) (k.definition word rest)) := by
  obtain ⟨hcapital, hopens, hunlike⟩ := classes_of_mem_keyWords hword
  have hunread : keyword? "CONSTRAINT" (k.definition word rest) = none := by
    rw [definition, k.casing.keyword?_spell_append (by decide) hcapital (endsWord_space _), hunlike]
    rfl
  have hnamed : namedConstraint? (k.definition word rest) = none := by
    rw [namedConstraint?, clause?_eq_none (by rw [hunread]; rfl)]
    rfl
  have hany : (constraintWords.any fun ws => (wholePhrase? ws (k.definition word rest)).isSome) =
      true := by
    refine List.any_eq_true.2 ⟨_, hopens, ?_⟩
    rw [wholePhrase?, k.phrase?_definition hcapital]
    simp [endsWord_space_paren]
  simp only [TableConstraint.ofFragment?, htrim, hnamed, hany, if_true]

theorem namedConstraint?_label (hword : IsCapital word) (name : Part)
    (htrim : trim (k.definition word rest) = k.definition word rest) :
    namedConstraint? (labelText k.casing (some name) ++ k.definition word rest) =
      some (normalizeName name.text, k.definition word rest) := by
  obtain ⟨c, s, hcons, hsolid⟩ := k.definition_eq_cons hword rest
  obtain ⟨d, u, hname, hd⟩ := name.exists_cons
  have htext : labelText k.casing (some name) ++ k.definition word rest =
      k.casing.spell "CONSTRAINT" ++ ' ' :: (name.text ++ ' ' :: k.definition word rest) := by
    simp [labelText]
  have hclause : clause? ["CONSTRAINT"] (labelText k.casing (some name) ++ k.definition word rest) =
      some (name.text ++ ' ' :: k.definition word rest) := by
    rw [htext, hname]
    exact k.casing.clause?_spell (by decide) hd _
  have hread := name.name? TableName.isNamePart_marks.2.2.2 (k.definition word rest)
  have hblanks : blanks? (' ' :: k.definition word rest) = some (k.definition word rest) :=
    blanks?_space (by rw [hcons, skipBlanks_solid hsolid])
  simp only [namedConstraint?, hclause, hread, hblanks, htrim, Option.bind_eq_bind,
    Option.bind_some, Option.pure_def]

theorem ofFragment?_text (hword : word ∈ keyWords)
    (htrim : trim (k.text word rest) = k.text word rest) (table : Text) :
    TableConstraint.ofFragment? table (k.text word rest) =
      some (.ofDefinition table (k.label?.map fun name => normalizeName name.text)
        (k.definition word rest) (k.raw word rest)) := by
  obtain ⟨hcapital, -, -⟩ := classes_of_mem_keyWords hword
  have hdefinition : trim (k.definition word rest) = k.definition word rest := by
    obtain ⟨c, s, hcons, hsolid⟩ := k.definition_eq_cons hcapital rest
    refine trim_of_ends ?_ ?_
    · rw [hcons]
      intro d hd
      cases hd
      exact hsolid
    · -- The last character of the definition is the last one of the clause.
      intro d hd
      refine solidEnd_trim (k.text word rest) d ?_
      rw [htrim, text, List.getLast?_append, hd]
      rfl
  cases hlabel : k.label? with
  | none =>
    have htext : k.text word rest = k.definition word rest := by
      rw [text, hlabel]
      rfl
    rw [htext, k.ofFragment?_definition hword hdefinition, raw, hlabel]
    rfl
  | some name =>
    have hnamed := k.namedConstraint?_label hcapital name hdefinition
    have hraw : k.raw word rest =
        "CONSTRAINT" ++ ' ' :: (normalizeName name.text ++ ' ' :: k.definition word rest) := by
      rw [raw, hlabel]
    rw [text, hlabel] at htrim ⊢
    simp only [TableConstraint.ofFragment?, htrim, hnamed, hraw]
    simp

theorem ofFragment_primary (htrim : trim (k.text "PRIMARY" rest) = k.text "PRIMARY" rest)
    (table : Text) :
    Use.ofFragment table (k.text "PRIMARY" rest) =
      .clause (k.raw "PRIMARY" rest) k.list.names := by
  have hclause := k.ofFragment?_text (by decide) htrim table
  have hforeign : ∀ name?, foreignKeys? table name? (k.definition "PRIMARY" rest) = none := by
    intro name?
    rw [foreignKeys?, foreignKeyClause?, k.phrase?_definition_none (by decide) (by decide) rfl]
    rfl
  have hprimary : primaryKey? (k.definition "PRIMARY" rest) = some k.list.names := by
    have hnonempty : k.list.names.isEmpty = false := by simp [Listing.names]
    simp only [primaryKey?, k.phrase?_definition (by decide : IsCapital "PRIMARY"),
      Option.bind_eq_bind, Option.bind_some, parenthesized?_space _ k.list.close_not_mem_text,
      k.list.nameList_text, hnonempty]
    rfl
  simp only [Use.ofFragment, hclause, TableConstraint.ofDefinition, hforeign, hprimary, Use.ofClause]

end KeyClause

structure References where
  spaced : Bool
  table : TableName
  spacedList : Bool
  column : Part
  list : Listing column
  tail : Text

namespace References

def text (k : Casing) (r : References) : Text :=
  space r.spaced ++ (k.spell "REFERENCES" ++ ' ' :: (r.table.text ++
    (space r.spacedList ++ '(' :: (r.list.text ++ ')' :: r.tail))))

def target (r : References) : Reference :=
  ⟨normalizeName r.table.text, normalizeName r.column.text⟩

end References

namespace KeyClause
variable {p : Part} (k : KeyClause p) (r : References)

/-- The two lists have the same length, and the column is listed once, where its target is. -/
structure Pairs : Prop where
  front : k.list.front.length = r.list.front.length
  back : k.list.back.length = r.list.back.length
  once : ∀ item ∈ k.list.front ++ k.list.back, normalizeName item ≠ normalizeName p.text

def keys (constraintName : Text) : List ForeignKey :=
  k.list.names.zipWith (fun c t => ⟨c, ⟨normalizeName r.table.text, t⟩, constraintName⟩) r.list.names

theorem foreignKeyClause?_definition :
    foreignKeyClause? (k.definition "FOREIGN" (r.text k.casing)) =
      some (k.list.text, r.table.text, r.list.text) := by
  have hskip : skipBlanks (r.text k.casing) = k.casing.spell "REFERENCES" ++ ' ' :: (r.table.text ++
      (space r.spacedList ++ '(' :: (r.list.text ++ ')' :: r.tail))) := by
    have hplain := k.casing.plain_spell (w := "REFERENCES") (by decide)
    rw [References.text]
    cases r.spaced with
    | false => exact hplain.skipBlanks _
    | true => exact hplain.skipBlanks _
  have hclause : clause? ["REFERENCES"] (skipBlanks (r.text k.casing)) =
      some (r.table.text ++ (space r.spacedList ++ '(' :: (r.list.text ++ ')' :: r.tail))) := by
    obtain ⟨c, s, hcons, hc⟩ := r.table.exists_cons
    rw [hskip, hcons]
    exact k.casing.clause?_spell (by decide) hc _
  obtain ⟨n, hn, hname⟩ : ∃ n : QualifiedName, n.text = r.table.text ∧
      qualifiedName? (r.table.text ++ (space r.spacedList ++ '(' :: (r.list.text ++ ')' :: r.tail))) =
        some (n, space r.spacedList ++ '(' :: (r.list.text ++ ')' :: r.tail)) := by
    cases r.spacedList with
    | false => exact r.table.qualifiedName? _
    | true => exact r.table.qualifiedName?_before TableName.isNamePart_marks.2.2.2 rfl
  simp only [foreignKeyClause?, k.phrase?_definition (by decide : IsCapital "FOREIGN"),
    Option.bind_eq_bind, Option.bind_some, parenthesized?_space _ k.list.close_not_mem_text, hclause,
    hname, parenthesized?_space _ r.list.close_not_mem_text, hn, Option.pure_def]

def constraintName (table : Text) : Text :=
  (k.label?.map fun name => normalizeName name.text).getD (foreignKeyName table k.list.names)

/-- A foreign key clause makes one key for each pair of names, and none where a name has no partner. -/
theorem ofFragment?_foreign
    (htrim : trim (k.text "FOREIGN" (r.text k.casing)) = k.text "FOREIGN" (r.text k.casing))
    (table : Text) :
    TableConstraint.ofFragment? table (k.text "FOREIGN" (r.text k.casing)) =
      some (if k.list.names.length = r.list.names.length then
          .foreignKeys (k.keys r (k.constraintName table))
        else .other (k.raw "FOREIGN" (r.text k.casing))) := by
  have hnonempty : k.list.names.isEmpty = false := by simp [Listing.names]
  rw [k.ofFragment?_text (by decide) htrim, TableConstraint.ofDefinition, foreignKeys?,
    k.foreignKeyClause?_definition r]
  simp only [Option.bind_eq_bind, Option.bind_some, Listing.nameList_text, hnonempty, Bool.false_or,
    decide_eq_true_eq]
  by_cases hlength : k.list.names.length = r.list.names.length
  · simp only [hlength, ne_eq, not_true_eq_false, if_false, if_true]
    rfl
  · have hprimary : primaryKey? (k.definition "FOREIGN" (r.text k.casing)) = none := by
      rw [primaryKey?, k.phrase?_definition_none (by decide) (by decide) rfl]
      rfl
    simp only [hlength, ne_eq, not_false_eq_true, if_false, if_true, hprimary]

variable {k r}

theorem Pairs.length_names (h : k.Pairs r) : k.list.names.length = r.list.names.length := by
  simp [Listing.names, h.front, h.back]

theorem Pairs.ofFragment (h : k.Pairs r)
    (htrim : trim (k.text "FOREIGN" (r.text k.casing)) = k.text "FOREIGN" (r.text k.casing))
    (table : Text) : Use.ofFragment table (k.text "FOREIGN" (r.text k.casing)) =
      .foreignKeys (k.keys r (k.constraintName table)) := by
  simp only [Use.ofFragment, k.ofFragment?_foreign r htrim, if_pos h.length_names, Use.ofClause]

theorem Pairs.filter_keys (h : k.Pairs r) (constraintName : Text) :
    (k.keys r constraintName).filter (·.column = normalizeName p.text) =
      [⟨normalizeName p.text, r.target, constraintName⟩] := by
  obtain ⟨hfront, hback⟩ := List.forall_mem_append.1 h.once
  have hnone : ∀ {columns targets : List Text},
      (∀ item ∈ columns, normalizeName item ≠ normalizeName p.text) →
      ((columns.map normalizeName).zipWith (fun c t =>
        (⟨c, ⟨normalizeName r.table.text, t⟩, constraintName⟩ : ForeignKey)) targets).filter
          (·.column = normalizeName p.text) = [] := by
    intro columns targets hcolumns
    refine List.filter_eq_nil_iff.2 ?_
    intro key hkey
    rw [← List.map_uncurry_zip_eq_zipWith] at hkey
    obtain ⟨⟨c, t⟩, hpair, rfl⟩ := List.mem_map.1 hkey
    obtain ⟨item, hitem, rfl⟩ := List.mem_map.1 (List.of_mem_zip hpair).1
    exact mt of_decide_eq_true (hcolumns item hitem)
  have hlength : (k.list.front.map normalizeName).length = (r.list.front.map normalizeName).length := by
    simpa using h.front
  rw [keys, Listing.names, Listing.names, List.zipWith_append hlength, List.zipWith_cons_cons,
    List.filter_append, hnone hfront, List.filter_cons_of_pos (by simp), hnone hback]
  rfl

end KeyClause

end SchemaDiagram.Declaration
