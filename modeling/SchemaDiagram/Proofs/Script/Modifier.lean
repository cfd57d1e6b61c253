import SchemaDiagram.Proofs.Script.Clean

set_option autoImplicit false

namespace SchemaDiagram.Script
open Sql Unicode Text

def leads : List Text := ["PRIMARY", "NOT", "UNIQUE", "DEFAULT", "REFERENCES", "CHECK"]

theorem isCapital_of_mem_leads {w : Text} (hw : w ∈ leads) : w ∈ reserved ∧ IsCapital w := by
  have hall : ∀ w ∈ leads, w ∈ reserved ∧ IsCapital w := by decide
  exact hall w hw

namespace Modifier

def lead : Modifier → Text
  | primaryKey => "PRIMARY"
  | notNull => "NOT"
  | unique => "UNIQUE"
  | default _ => "DEFAULT"
  | references _ _ => "REFERENCES"

def masked (m : Modifier) : Text := Quoting.mask m.text

theorem masked_references (table column : Name) :
    (references table column).masked = (references table column).text := by
  have hname : ∀ n : Name, ∀ c ∈ n.text, Quoting.isQuote c = false :=
    fun n c hc => (n.plain.flat c hc).1
  have hword : ∀ c ∈ ("REFERENCES " : Text), Quoting.isQuote c = false := by decide
  refine Quoting.mask_of_not_quote ?_
  intro c hc
  have htext : (references table column).text =
      ("REFERENCES " : Text) ++ (table.text ++ '(' :: (column.text ++ [')'])) := rfl
  rw [htext, List.mem_append, List.mem_append, List.mem_cons, List.mem_append,
    List.mem_singleton] at hc
  rcases hc with hc | hc | hc | hc | hc
  · exact hword c hc
  · exact hname table c hc
  · rw [hc]
    decide
  · exact hname column c hc
  · rw [hc]
    decide

theorem masked_default (v : Value) : (default v).masked = "DEFAULT " ++ Quoting.mask v.text := by
  have hword : ∀ c ∈ ("DEFAULT " : Text), Quoting.isQuote c = false := by decide
  have hafter : Quoting.start.after "DEFAULT " = Quoting.start := by decide
  have hfirst := Quoting.mask_of_not_quote hword
  have happend := Quoting.maskFrom_append Quoting.start "DEFAULT " v.text
  rw [hafter] at happend
  unfold Quoting.mask at hfirst
  rw [hfirst] at happend
  exact happend

theorem masked_digits (d : Digits) : Quoting.mask d.text = d.text :=
  Quoting.mask_of_not_quote fun c hc => (d.plain.flat c hc).1

theorem lacks_references {table column : Name} {w : Text} (hw : w ∈ leads) (h : "REFERENCES" ≠ w) :
    Lacks w (references table column).text := by
  have hfirst : ∀ w ∈ leads, ("REFERENCES" : Text) ≠ w → Lacks w "REFERENCES" := by decide
  obtain ⟨hkeyword, hcapital⟩ := isCapital_of_mem_leads hw
  have hname : ∀ n : Name, Lacks w n.text :=
    fun n => lacks_of_word n.plain.isWordChar (n.keyword? hkeyword hcapital)
  have htext : (references table column).text =
      "REFERENCES" ++ ' ' :: (table.text ++ '(' :: (column.text ++ ')' :: [])) := rfl
  rw [htext, lacks_append_cons isWordChar_space, lacks_append_cons (isWordChar_mark (by decide)),
    lacks_append_cons (isWordChar_mark (by decide))]
  exact ⟨hfirst w hw h, hname table, hname column, lacks_nil hcapital⟩

theorem lacks_default {s w : Text} (hw : w ∈ leads) (h : "DEFAULT" ≠ w) (hs : Lacks w s) :
    Lacks w ("DEFAULT " ++ s) := by
  have hfirst : ∀ w ∈ leads, ("DEFAULT" : Text) ≠ w → Lacks w "DEFAULT" := by decide
  have htext : "DEFAULT " ++ s = "DEFAULT" ++ ' ' :: s := rfl
  rw [htext, lacks_append_cons isWordChar_space]
  exact ⟨hfirst w hw h, hs⟩

theorem lacks_masked {m : Modifier} {w : Text} (hw : w ∈ leads) (h : m.lead ≠ w) :
    Lacks w m.masked := by
  have hcapital := (isCapital_of_mem_leads hw).2
  cases m with
  | primaryKey =>
    have hall : ∀ w ∈ leads, ("PRIMARY" : Text) ≠ w → Lacks w "PRIMARY KEY" := by decide
    exact hall w hw h
  | notNull =>
    have hall : ∀ w ∈ leads, ("NOT" : Text) ≠ w → Lacks w "NOT NULL" := by decide
    exact hall w hw h
  | unique =>
    have hall : ∀ w ∈ leads, ("UNIQUE" : Text) ≠ w → Lacks w "UNIQUE" := by decide
    exact hall w hw h
  | default v =>
    rw [masked_default]
    refine lacks_default hw h ?_
    cases v with
    | digits d =>
      rw [Value.text, masked_digits]
      exact lacks_of_word d.plain.isWordChar (d.keyword? hcapital)
    | literal l => exact lacks_of_gaps hcapital l.mask_gaps
  | references table column =>
    rw [masked_references]
    exact lacks_references hw h

theorem lacks_text {m : Modifier} (h : m.lead ≠ "REFERENCES") : Lacks "REFERENCES" m.text := by
  have hcapital : IsCapital "REFERENCES" := by decide
  cases m with
  | primaryKey => exact lacks_masked (m := primaryKey) (by decide) h
  | notNull => exact lacks_masked (m := notNull) (by decide) h
  | unique => exact lacks_masked (m := unique) (by decide) h
  | default v =>
    refine lacks_default (by decide) h ?_
    cases v with
    | digits d => exact lacks_of_word d.plain.isWordChar (d.keyword? hcapital)
    | literal l => exact l.lacks hcapital l.noReferences
  | references table column => exact absurd rfl h

end Modifier

def spaced (f : Modifier → Text) (ms : List Modifier) : Text := ms.flatMap fun m => ' ' :: f m

theorem tail_append (ms ns : List Modifier) :
    ColumnLine.tail (ms ++ ns) = ColumnLine.tail ms ++ ColumnLine.tail ns := List.flatMap_append

theorem endsWord_spaced (f : Modifier → Text) (ms : List Modifier) :
    endsWord (spaced f ms) = true := by
  cases ms with
  | nil => rfl
  | cons m ms => simp [spaced, endsWord]

theorem mask_tail (ms : List Modifier) :
    Quoting.mask (ColumnLine.tail ms) = spaced Modifier.masked ms := by
  have hfrom : ∀ b, (Quoting.outside b).maskFrom (ColumnLine.tail ms) =
      spaced Modifier.masked ms := by
    induction ms with
    | nil => exact fun _ => rfl
    | cons m ms ih =>
      intro b
      have htail : ColumnLine.tail (m :: ms) = (' ' :: m.text) ++ ColumnLine.tail ms := rfl
      have hspace : (Quoting.outside b).step ' ' = .outside .gap := by
        rw [Quoting.step_outside (c := ' ') (by decide), Quoting.next_space]
      have hfirst : (Quoting.outside b).maskFrom (' ' :: m.text) = ' ' :: m.masked := by
        rw [Quoting.maskFrom, hspace]
        rfl
      obtain ⟨b', hb'⟩ := m.level.after b
      rw [htail, Quoting.maskFrom_append, hfirst, hb', ih]
      rfl
  exact hfrom .gap

theorem width_spaced_masked (ms : List Modifier) :
    width (spaced Modifier.masked ms) = width (ColumnLine.tail ms) := by
  rw [← mask_tail, Quoting.mask, Quoting.width_maskFrom]

theorem lacks_spaced {w : Text} (hw : IsCapital w) {f : Modifier → Text} {ms : List Modifier}
    (h : ∀ m ∈ ms, Lacks w (f m)) : Lacks w (spaced f ms) := by
  induction ms with
  | nil => exact lacks_nil hw
  | cons m ms ih =>
    have hm := h m List.mem_cons_self
    have hms := ih fun n hn => h n (List.mem_cons_of_mem m hn)
    have hcons : spaced f (m :: ms) = ' ' :: (f m ++ spaced f ms) := rfl
    rw [hcons, lacks_cons hw isWordChar_space]
    cases ms with
    | nil => simpa [spaced] using hm
    | cons n ns =>
      have htail : spaced f (n :: ns) = ' ' :: (f n ++ spaced f ns) := rfl
      rw [htail, lacks_cons hw isWordChar_space] at hms
      rw [htail, lacks_append_cons isWordChar_space]
      exact ⟨hm, hms⟩

section
variable {α : Type} {read : Text → Option (α × Text)} {w : Text} {f : Modifier → Text}

theorem search?_of_lacks (hw : IsCapital w) (hread : Leads w read) (accept : Nat → Bool)
    {ms : List Modifier} (h : ∀ m ∈ ms, Lacks w (f m)) : search? read accept (spaced f ms) = none :=
  searchFrom?_of_silent ((lacks_spaced hw h).silent hw hread rfl) 0

theorem search?_first (hw : IsCapital w) (hread : Leads w read) {accept : Nat → Bool}
    {pre : List Modifier} (hpre : ∀ n ∈ pre, Lacks w (f n)) {m : Modifier} (hm : f m ≠ [])
    (post : List Modifier) {v : α} {r : Text} (hr : read (f m ++ spaced f post) = some (v, r))
    (ha : accept (width (spaced f pre) + 1) = true) :
    search? read accept (spaced f (pre ++ m :: post)) =
      some ⟨width (spaced f pre) + 1,
        width (spaced f pre) + 1 + (width (f m ++ spaced f post) - width r), v⟩ := by
  have htext : spaced f (pre ++ m :: post) =
      (spaced f pre ++ [' ']) ++ (f m ++ spaced f post) := by
    simp [spaced]
  have hsilent : Silent read (f m ++ spaced f post) none (spaced f pre ++ [' ']) :=
    (lacks_spaced hw hpre).silent_gap hw hread isWordChar_space
  have hwidth : width (spaced f pre ++ [' ']) = width (spaced f pre) + 1 := by
    rw [width_append]
    rfl
  have hbefore : beginsWord (lastOf none (spaced f pre ++ [' '])) = true := by
    rw [lastOf_append]
    simp [lastOf, beginsWord]
  rw [search?, htext, searchFrom?_silent hsilent, hwidth, Nat.zero_add]
  exact searchFrom?_of_read hbefore hr (by simp [hm]) ha

end

theorem hasPhrase_spaced {w : Text} {ws : List Text} {p : Modifier → Bool} {k : Modifier}
    (hw : w ∈ leads) (hlead : ∀ m, p m = false → m.lead ≠ w)
    (hkind : ∀ m, p m = true → m = k) (hne : k.masked ≠ [])
    (hphrase : ∀ rest, phrase? (w :: ws) (k.masked ++ rest) = some rest)
    (ms : List Modifier) : hasPhrase (w :: ws) (spaced Modifier.masked ms) = ms.any p := by
  have hcapital := (isCapital_of_mem_leads hw).2
  have hleads := (leads_wholePhrase? w ws).map fun rest => ((), rest)
  unfold hasPhrase find?
  cases hfind : ms.find? p with
  | none =>
    have hnone := List.find?_eq_none.1 hfind
    have hlacks : ∀ m ∈ ms, Lacks w m.masked := fun m hm =>
      Modifier.lacks_masked hw (hlead m (by simpa using hnone m hm))
    have hany : ms.any p = false := by simpa using hnone
    rw [search?_of_lacks hcapital hleads _ hlacks, hany]
    rfl
  | some m =>
    obtain ⟨hm, pre, post, rfl, hpre⟩ := List.find?_eq_some_iff_append.1 hfind
    have hlacks : ∀ n ∈ pre, Lacks w n.masked := fun n hn =>
      Modifier.lacks_masked hw (hlead n (by simpa using hpre n hn))
    obtain rfl := hkind m hm
    have hmapped : (wholePhrase? (w :: ws) (m.masked ++ spaced Modifier.masked post)).map
        (fun rest => ((), rest)) = some ((), spaced Modifier.masked post) := by
      simp [wholePhrase?, hphrase, endsWord_spaced]
    rw [search?_first hcapital hleads hlacks hne post hmapped rfl]
    simp [hm]

theorem isPrimaryKey_spaced (ms : List Modifier) :
    hasPhrase ["PRIMARY", "KEY"] (spaced Modifier.masked ms) = ms.any Modifier.isPrimaryKey := by
  refine hasPhrase_spaced (k := .primaryKey) (by decide) ?_ ?_ (by decide) (fun _ => rfl) ms
  · intro m hm
    cases m <;> first | exact of_decide_eq_true rfl | cases hm
  · intro m hm
    cases m <;> first | rfl | cases hm

theorem isNotNull_spaced (ms : List Modifier) :
    hasPhrase ["NOT", "NULL"] (spaced Modifier.masked ms) = ms.any Modifier.isNotNull := by
  refine hasPhrase_spaced (k := .notNull) (by decide) ?_ ?_ (by decide) (fun _ => rfl) ms
  · intro m hm
    cases m <;> first | exact of_decide_eq_true rfl | cases hm
  · intro m hm
    cases m <;> first | rfl | cases hm

theorem isUnique_spaced (ms : List Modifier) :
    hasPhrase ["UNIQUE"] (spaced Modifier.masked ms) = ms.any Modifier.isUnique := by
  refine hasPhrase_spaced (k := .unique) (by decide) ?_ ?_ (by decide) (fun _ => rfl) ms
  · intro m hm
    cases m <;> first | exact of_decide_eq_true rfl | cases hm
  · intro m hm
    cases m <;> first | rfl | cases hm

theorem value_append_tail (v : Value) (ms : List Modifier) :
    value (v.text ++ ColumnLine.tail ms) = v.text := by
  have hscan : Quiet Nesting.step Nesting.stops .start v.text ∧
      ∃ b, v.text.foldl Nesting.step .start = ⟨.outside b, 0⟩ := by
    cases v with
    | digits d =>
      refine ⟨d.plain.flat.quiet ?_ .gap, d.plain.flat.foldl .gap 0⟩
      intro c hc b
      have hclose := d.plain.ne_mark (m := ')') (by decide) c hc
      have hcomma := d.plain.ne_mark (m := ',') (by decide) c hc
      simp [Nesting.stops, hclose, hcomma, d.plain.isBlank c hc]
    | literal l =>
      refine ⟨l.quiet ?_, .gap, l.foldl⟩
      intro n c hcovers
      simp [Nesting.stops, hcovers]
  obtain ⟨hquiet, b, hb⟩ := hscan
  have hend :
      (spanWith Nesting.step Nesting.stops ⟨.outside b, 0⟩ (ColumnLine.tail ms)).1 = [] := by
    cases ms with
    | nil => rfl
    | cons m ms =>
      have hstop : Nesting.stops ⟨.outside b, 0⟩ ' ' = true := rfl
      have htail : ColumnLine.tail (m :: ms) = ' ' :: (m.text ++ ColumnLine.tail ms) := rfl
      rw [htail, spanWith, if_pos hstop]
  rw [value, spanWith_of_quiet hquiet, hb, hend, List.append_nil]

theorem Value.mask_head (v : Value) : ∃ c s, Quoting.mask v.text = c :: s ∧ isBlank c = false := by
  cases v with
  | digits d =>
    obtain ⟨c, s, hs⟩ := List.exists_cons_of_ne_nil d.nonempty
    have hblank := d.plain.isBlank c (by simp [hs])
    exact ⟨c, s, by rw [Value.text, Modifier.masked_digits, hs], hblank⟩
  | literal l => exact ⟨'\'', _, rfl, by decide⟩

theorem defaultMark?_spaced {pre : List Modifier} (hpre : ∀ m ∈ pre, m.lead ≠ "DEFAULT")
    (v : Value) (post : List Modifier) :
    defaultMark? (spaced Modifier.masked (pre ++ .default v :: post)) =
      some ⟨width (ColumnLine.tail pre) + 1, width (ColumnLine.tail pre ++ " DEFAULT "), ()⟩ := by
  have hcapital : IsCapital "DEFAULT" := by decide
  have hleads := (leads_clause? "DEFAULT" []).map fun rest => ((), rest)
  have hlacks : ∀ n ∈ pre, Lacks "DEFAULT" n.masked := fun n hn =>
    Modifier.lacks_masked (by decide) (hpre n hn)
  obtain ⟨c, s, hmask, hblank⟩ := v.mask_head
  have hread : clause? ["DEFAULT"] ((Modifier.default v).masked ++ spaced Modifier.masked post) =
      some (Quoting.mask v.text ++ spaced Modifier.masked post) := by
    have hfirst : keyword? "DEFAULT" ("DEFAULT " ++ (c :: (s ++ spaced Modifier.masked post))) =
        some (' ' :: c :: (s ++ spaced Modifier.masked post)) := rfl
    have hspace : isBlank ' ' = true := by decide
    rw [Modifier.masked_default, hmask, List.append_assoc, List.cons_append, clause?, hfirst]
    simp [clause?, blanks?, skipBlanks, hspace, hblank]
  have hne : (Modifier.default v).masked ≠ [] := by
    rw [Modifier.masked_default]
    exact List.cons_ne_nil _ _
  have hmapped : (clause? ["DEFAULT"] ((Modifier.default v).masked ++
      spaced Modifier.masked post)).map (fun rest => ((), rest)) =
      some ((), Quoting.mask v.text ++ spaced Modifier.masked post) := by
    rw [hread]
    rfl
  rw [defaultMark?, find?, search?_first hcapital hleads hlacks hne post hmapped rfl,
    width_spaced_masked, Modifier.masked_default]
  simp only [width_append]
  have hword : width "DEFAULT " = 8 := by decide
  have hmark : width " DEFAULT " = 9 := by decide
  congr 2
  omega

theorem defaultValue?_tail (ms : List Modifier) :
    defaultValue? (ColumnLine.tail ms) (spaced Modifier.masked ms) =
      ms.findSome? Modifier.default? := by
  have hlead : ∀ m : Modifier, m.default? = none → m.lead ≠ "DEFAULT" := by
    intro m hm
    cases m <;> first | exact of_decide_eq_true rfl | cases hm
  cases hfind : ms.findSome? Modifier.default? with
  | none =>
    have hnone := List.findSome?_eq_none_iff.1 hfind
    have hlacks : ∀ m ∈ ms, Lacks "DEFAULT" m.masked := fun m hm =>
      Modifier.lacks_masked (by decide) (hlead m (hnone m hm))
    have hmark : defaultMark? (spaced Modifier.masked ms) = none :=
      search?_of_lacks (by decide) ((leads_clause? "DEFAULT" []).map _) _ hlacks
    simp [defaultValue?, hmark]
  | some t =>
    obtain ⟨pre, m, post, rfl, hm, hpre⟩ := List.findSome?_eq_some_iff.1 hfind
    cases m with
    | default v =>
      cases hm
      have hmark := defaultMark?_spaced (fun n hn => hlead n (hpre n hn)) v post
      have hcons : ColumnLine.tail (.default v :: post) =
          " DEFAULT " ++ (v.text ++ ColumnLine.tail post) := rfl
      have htext : ColumnLine.tail (pre ++ .default v :: post) =
          (ColumnLine.tail pre ++ " DEFAULT ") ++ (v.text ++ ColumnLine.tail post) := by
        rw [tail_append, hcons, List.append_assoc]
      have hne : v.text.isEmpty = false := by
        cases v with
        | digits d => exact List.isEmpty_eq_false_iff.2 d.nonempty
        | literal l => rfl
      simp only [defaultValue?, hmark, htext, dropBytes?_width_append, Option.bind_eq_bind,
        Option.bind_some, value_append_tail, hne]
      rfl
    | _ => cases hm

theorem checkClause?_tail (tail : Text) (ms : List Modifier) :
    checkClause? tail (spaced Modifier.masked ms) = none := by
  have hleads : Leads "CHECK" fun t =>
      (keyword? "CHECK" t).bind fun r => mark? '(' (skipBlanks r) := by
    intro s hs
    obtain ⟨u, hu⟩ := Option.ne_none_iff_exists'.1 hs
    obtain ⟨r, hr, hopen⟩ := Option.bind_eq_some_iff.1 hu
    refine wholePhrase?_ne_none_iff.2 ⟨r, hr, ?_⟩
    cases r with
    | nil => rfl
    | cons c r =>
      by_cases hc : isBlank c = true
      · simp [endsWord, isWordChar_of_isBlank hc]
      · have hparen : isWordChar '(' = false := isWordChar_mark (by decide)
        simp only [skipBlanks, List.dropWhile_cons, hc, if_false, Bool.false_eq_true,
          mark?] at hopen
        split at hopen
        · rename_i heq
          simp [endsWord, heq, hparen]
        · cases hopen
  have hlacks : ∀ m ∈ ms, Lacks "CHECK" m.masked := by
    intro m _
    refine Modifier.lacks_masked (by decide) ?_
    cases m <;> exact of_decide_eq_true rfl
  have hmark : checkMark? (spaced Modifier.masked ms) = none :=
    search?_of_lacks (by decide) (hleads.map _) _ hlacks
  simp [checkClause?, hmark]

theorem referenceClause?_text (table column : Name) (rest : Text) :
    referenceClause? ((Modifier.references table column).text ++ rest) =
      some (⟨table.text, column.text⟩, rest) := by
  have hprinted : (Modifier.references table column).text =
      "REFERENCES" ++ ' ' :: (table.text ++ '(' :: (column.text ++ [')'])) := rfl
  have htext : (Modifier.references table column).text ++ rest =
      "REFERENCES" ++ ' ' :: (table.text ++ '(' :: (column.text ++ ')' :: rest)) := by
    simp only [hprinted, List.append_assoc, List.cons_append, List.nil_append]
  have hpoint : secondPart? ('(' :: (column.text ++ ')' :: rest)) = none := rfl
  have htable := table.qualifiedName? (c := '(') (by decide) hpoint
  have hopen : mark? '(' (skipBlanks ('(' :: (column.text ++ ')' :: rest))) =
      some (column.text ++ ')' :: rest) := rfl
  have hclose : mark? ')' (skipBlanks (')' :: rest)) = some rest := rfl
  simp only [referenceClause?, htext, table.plain.clause?, Option.bind_eq_bind, Option.bind_some,
    htable, hopen, column.plain.skipBlanks, column.name? (c := ')') (by decide), hclose]
  simp [QualifiedName.text, normalizeName_of_plain table.plain,
    normalizeName_of_plain column.plain]

theorem inlineReference?_tail (ms : List Modifier) :
    inlineReference? (ColumnLine.tail ms) (spaced Modifier.masked ms) =
      ms.findSome? Modifier.reference? := by
  have hcapital : IsCapital "REFERENCES" := by decide
  have hleads : Leads "REFERENCES" referenceClause? := (leads_clause? "REFERENCES" []).bind _
  have hlacks : ∀ m : Modifier, m.reference? = none → Lacks "REFERENCES" m.text := by
    intro m hm
    refine Modifier.lacks_text ?_
    cases m <;> first | exact of_decide_eq_true rfl | cases hm
  have htail : ∀ ns, ColumnLine.tail ns = spaced Modifier.text ns := fun _ => rfl
  cases hfind : ms.findSome? Modifier.reference? with
  | none =>
    have hnone := List.findSome?_eq_none_iff.1 hfind
    rw [inlineReference?, htail,
      search?_of_lacks hcapital hleads _ fun m hm => hlacks m (hnone m hm)]
    rfl
  | some r =>
    obtain ⟨pre, m, post, rfl, hm, hpre⟩ := List.findSome?_eq_some_iff.1 hfind
    cases m with
    | references table column =>
      cases hm
      -- The clause is read from the text itself; the mask only has to show the word there too.
      have hmasked : spaced Modifier.masked (pre ++ .references table column :: post) =
          (spaced Modifier.masked pre ++ [' ']) ++
            ((Modifier.references table column).text ++ spaced Modifier.masked post) := by
        simp [spaced, Modifier.masked_references]
      have hwidth : width (spaced Modifier.text pre) + 1 =
          width (spaced Modifier.masked pre ++ [' ']) := by
        rw [width_append, width_spaced_masked, htail]
        rfl
      have hbegins : ∀ t, Text.beginsWith ((Modifier.references table column).text ++ t)
          "REFERENCES" = true := fun _ => rfl
      have haccept : (Text.dropBytes? (width (spaced Modifier.text pre) + 1)
          (spaced Modifier.masked (pre ++ .references table column :: post))).any
            (Text.beginsWith · "REFERENCES") = true := by
        rw [hmasked, hwidth, dropBytes?_width_append, Option.any_some, hbegins]
      have hne : (Modifier.references table column).text ≠ [] := List.cons_ne_nil _ _
      rw [inlineReference?, htail, search?_first hcapital hleads
        (fun n hn => hlacks n (hpre n hn)) hne post (referenceClause?_text table column _) haccept]
      rfl
    | _ => cases hm

end SchemaDiagram.Script
