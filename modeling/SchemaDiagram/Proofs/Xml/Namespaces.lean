import SchemaDiagram.Proofs.Xml.Syntax
import SchemaDiagram.Xml.Document

set_option autoImplicit false

namespace SchemaDiagram.Xml

namespace TagAttribute

def content (a : TagAttribute) : Text := attributeText (a.value.map Glyph.written)

/-- The attribute declares a namespace, for a qualifier or for elements without one. It counts for
the latter whatever its own qualifier. -/
def isDeclaration (a : TagAttribute) : Bool :=
  a.name.qualifier = declarationQualifier || a.name.localName = declarationQualifier

def declared (a : TagAttribute) : Text :=
  if a.name.qualifier = declarationQualifier then a.name.localName else []

def declaration (a : TagAttribute) : Text × Text := (a.declared, a.content)

end TagAttribute

def spaceOf (scope : Scope) (qualifier : Text) : Option Text :=
  if qualifier = xmlQualifier then some xmlNamespace
  else if qualifier.isEmpty then none
  else scope.lookup qualifier

def TagAttribute.resolved (scope : Scope) (a : TagAttribute) : Attribute :=
  ⟨spaceOf scope a.name.qualifier, a.name.localName, a.content⟩

/-- The declarations among attributes, but that of the qualifier that needs none. -/
def declarationsOf (as : List TagAttribute) : Scope :=
  ((as.filter (·.isDeclaration)).map (·.declaration)).filter (·.1 ≠ xmlQualifier)

namespace Tag

def declarations (t : Tag) : Scope := declarationsOf t.attributes

def others (t : Tag) : List TagAttribute := t.attributes.filter (!·.isDeclaration)

def scopeInside (scope : Scope) (t : Tag) : Scope := t.declarations ++ scope

/-- The names of a tag have namespaces: qualifiers are declared, the reserved namespaces are not given
to others, and no two attributes are the same. The qualifier `xml` is for attributes. -/
@[mk_iff]
structure Resolves (scope : Scope) (t : Tag) : Prop where
  names : (t.attributes.map (·.name)).Nodup
  reserved : ∀ a ∈ t.attributes, a.isDeclaration = true → a.content ≠ declarationNamespace ∧
    (a.declared = xmlQualifier ↔ a.content = xmlNamespace)
  element : t.name.qualifier ≠ declarationQualifier ∧
    (t.name.qualifier = [] ∨ ((t.scopeInside scope).lookup t.name.qualifier).isSome = true)
  qualifiers : ∀ a ∈ t.others, a.name.qualifier = [] ∨ a.name.qualifier = xmlQualifier ∨
    ((t.scopeInside scope).lookup a.name.qualifier).isSome = true
  distinct : (t.others.map fun a =>
    (spaceOf (t.scopeInside scope) a.name.qualifier, a.name.localName)).Nodup

instance (scope : Scope) : DecidablePred (Resolves scope) := fun t =>
  decidable_of_iff _ (resolves_iff scope t).symm

end Tag

section
variable {a : TagAttribute} {as : List TagAttribute}

theorem declarationsOf_cons_of_not (h : a.isDeclaration = false) :
    declarationsOf (a :: as) = declarationsOf as := by
  simp [declarationsOf, h]

theorem declarationsOf_cons (h : a.isDeclaration = true) : declarationsOf (a :: as) =
    if a.declared = xmlQualifier then declarationsOf as
    else a.declaration :: declarationsOf as := by
  by_cases hxml : a.declared = xmlQualifier <;>
    simp [declarationsOf, h, hxml, TagAttribute.declaration]

theorem TagAttribute.Valid.characters? (h : a.Valid) :
    characters? none a.raw.value = some (a.value.map Glyph.written) :=
  characters?_texts fun g hg => (h.value g hg).1

theorem TagAttribute.Valid.localName_ne_nil (h : a.Valid) : a.name.localName ≠ [] := by
  intro hnil
  have hname := h.name
  simp [QName.isValid, isNamePart, hnil] at hname

theorem declare?_cons (hvalid : a.Valid) (own : Scope) (others : List (QName × Text)) :
    declare? own others ((a :: as).map TagAttribute.raw) =
      if a.name.qualifier = declarationQualifier then
        if a.content = declarationNamespace || own.any (·.1 = a.name.localName) ||
            (a.name.localName = xmlQualifier) != (a.content = xmlNamespace) then none
        else if a.content = xmlNamespace then declare? own others (as.map TagAttribute.raw)
        else declare? (own ++ [(a.name.localName, a.content)]) others (as.map TagAttribute.raw)
      else if a.name.localName = declarationQualifier then
        if a.content = declarationNamespace || a.content = xmlNamespace then none
        else declare? (own ++ [([], a.content)]) others (as.map TagAttribute.raw)
      else declare? own (others ++ [(a.name, a.content)]) (as.map TagAttribute.raw) := by
  rw [List.map_cons, declare?, hvalid.characters?]
  rfl

theorem declare?_cons_of_qualified (hvalid : a.Valid)
    (hqualified : a.name.qualifier = declarationQualifier)
    (hplain : a.content ≠ declarationNamespace)
    (hxml : a.declared = xmlQualifier ↔ a.content = xmlNamespace)
    {own : Scope} (hown : ∀ d ∈ own, d.1 ≠ a.declared) (others : List (QName × Text)) :
    declare? own others ((a :: as).map TagAttribute.raw) =
      declare? (own ++ declarationsOf [a]) others (as.map TagAttribute.raw) := by
  have hdeclared : a.declared = a.name.localName := by
    simp [TagAttribute.declared, hqualified]
  have hfree : own.any (·.1 = a.name.localName) = false := by
    rw [← hdeclared]
    simpa using hown
  have hcheck : (decide (a.content = declarationNamespace) ||
      own.any (·.1 = a.name.localName) ||
      decide (a.name.localName = xmlQualifier) != decide (a.content = xmlNamespace)) = false := by
    rw [hfree]
    simp [hplain, ← hdeclared, hxml]
  have hstep : declare? own others ((a :: as).map TagAttribute.raw) =
      if a.content = xmlNamespace then declare? own others (as.map TagAttribute.raw)
      else declare? (own ++ [(a.name.localName, a.content)]) others (as.map TagAttribute.raw) := by
    rw [declare?_cons hvalid, if_pos hqualified, hcheck, if_neg Bool.false_ne_true]
  rw [hstep, declarationsOf_cons (by simp [TagAttribute.isDeclaration, hqualified])]
  by_cases hspace : a.content = xmlNamespace
  · rw [if_pos hspace, if_pos (hxml.2 hspace)]
    simp [declarationsOf]
  · rw [if_neg hspace, if_neg fun hname => hspace (hxml.1 hname)]
    simp [declarationsOf, TagAttribute.declaration, hdeclared]

theorem declare?_cons_of_default (hvalid : a.Valid)
    (hqualified : a.name.qualifier ≠ declarationQualifier)
    (hlocal : a.name.localName = declarationQualifier)
    (hplain : a.content ≠ declarationNamespace)
    (hxml : a.declared = xmlQualifier ↔ a.content = xmlNamespace)
    (own : Scope) (others : List (QName × Text)) :
    declare? own others ((a :: as).map TagAttribute.raw) =
      declare? (own ++ declarationsOf [a]) others (as.map TagAttribute.raw) := by
  have hdeclared : a.declared = [] := by simp [TagAttribute.declared, hqualified]
  have hxmlName : ([] : Text) ≠ xmlQualifier := by decide
  have hspace : a.content ≠ xmlNamespace := fun hspace =>
    hxmlName (hdeclared.symm.trans (hxml.2 hspace))
  rw [declare?_cons hvalid, if_neg hqualified, if_pos hlocal,
    declarationsOf_cons (by simp [TagAttribute.isDeclaration, hlocal]), hdeclared,
    if_neg hxmlName]
  simp [hplain, hspace, declarationsOf, TagAttribute.declaration, hdeclared]

theorem declare?_cons_of_isDeclaration (hvalid : a.Valid) (h : a.isDeclaration = true)
    (hreserved : a.content ≠ declarationNamespace ∧
      (a.declared = xmlQualifier ↔ a.content = xmlNamespace))
    {own : Scope} (hown : a.declared ≠ [] → ∀ d ∈ own, d.1 ≠ a.declared)
    (others : List (QName × Text)) :
    declare? own others ((a :: as).map TagAttribute.raw) =
      declare? (own ++ declarationsOf [a]) others (as.map TagAttribute.raw) := by
  obtain ⟨hplain, hxml⟩ := hreserved
  by_cases hqualified : a.name.qualifier = declarationQualifier
  · have hdeclared : a.declared ≠ [] := by
      simpa [TagAttribute.declared, hqualified] using hvalid.localName_ne_nil
    exact declare?_cons_of_qualified hvalid hqualified hplain hxml (hown hdeclared) others
  · have hlocal : a.name.localName = declarationQualifier := by
      simpa [TagAttribute.isDeclaration, hqualified] using h
    exact declare?_cons_of_default hvalid hqualified hlocal hplain hxml own others

theorem declare?_cons_of_not (hvalid : a.Valid) (h : a.isDeclaration = false)
    (own : Scope) (others : List (QName × Text)) :
    declare? own others ((a :: as).map TagAttribute.raw) =
      declare? own (others ++ [(a.name, a.content)]) (as.map TagAttribute.raw) := by
  obtain ⟨hqualified, hlocal⟩ : a.name.qualifier ≠ declarationQualifier ∧
      a.name.localName ≠ declarationQualifier := by
    simpa [TagAttribute.isDeclaration] using h
  rw [declare?_cons hvalid, if_neg hqualified, if_neg hlocal]

theorem TagAttribute.name_eq_of_declared {a b : TagAttribute} (h : a.declared = b.declared)
    (hne : b.declared ≠ []) : b.name = a.name := by
  have hqualified : ∀ c : TagAttribute, c.declared ≠ [] →
      c.name.qualifier = declarationQualifier ∧ c.name.localName = c.declared := by
    intro c hc
    unfold TagAttribute.declared at hc ⊢
    split at hc
    · rename_i hq
      exact ⟨hq, (if_pos hq).symm⟩
    · exact absurd rfl hc
  obtain ⟨hb, hbLocal⟩ := hqualified b hne
  obtain ⟨ha, haLocal⟩ := hqualified a (h ▸ hne)
  have hlocal : b.name.localName = a.name.localName := hbLocal.trans (h.symm.trans haLocal.symm)
  calc
    b.name = ⟨b.name.qualifier, b.name.localName⟩ := rfl
    _ = ⟨a.name.qualifier, a.name.localName⟩ := by rw [hb, ha, hlocal]

theorem declare?_raw {as : List TagAttribute} (hvalid : ∀ a ∈ as, a.Valid)
    (hnames : (as.map (·.name)).Nodup)
    (hreserved : ∀ a ∈ as, a.isDeclaration = true → a.content ≠ declarationNamespace ∧
      (a.declared = xmlQualifier ↔ a.content = xmlNamespace))
    (own : Scope) (others : List (QName × Text))
    (hown : ∀ a ∈ as, a.isDeclaration = true → a.declared ≠ [] → ∀ d ∈ own, d.1 ≠ a.declared) :
    declare? own others (as.map TagAttribute.raw) = some (own ++ declarationsOf as,
      others ++ (as.filter (!·.isDeclaration)).map fun a => (a.name, a.content)) := by
  induction as generalizing own others with
  | nil => simp [declare?, declarationsOf]
  | cons a as ih =>
    obtain ⟨ha, has⟩ := List.forall_mem_cons.1 hvalid
    obtain ⟨haReserved, hasReserved⟩ := List.forall_mem_cons.1 hreserved
    obtain ⟨haOwn, hasOwn⟩ := List.forall_mem_cons.1 hown
    obtain ⟨hfresh, hasNames⟩ := List.nodup_cons.1 hnames
    cases h : a.isDeclaration with
    | false =>
      rw [declare?_cons_of_not ha h,
        ih has hasNames hasReserved _ _ hasOwn, declarationsOf_cons_of_not h]
      simp [h]
    | true =>
      rw [declare?_cons_of_isDeclaration ha h (haReserved h) (haOwn h)]
      -- Another declaration of the same qualifier would be an attribute of the same name.
      have hlater : ∀ b ∈ as, b.isDeclaration = true → b.declared ≠ [] →
          ∀ d ∈ own ++ declarationsOf [a], d.1 ≠ b.declared := by
        intro b hb hdeclaration hdeclared d hd heq
        rcases List.mem_append.1 hd with hd | hd
        · exact hasOwn b hb hdeclaration hdeclared d hd heq
        · have hd : d = a.declaration := by
            rw [declarationsOf_cons h] at hd
            split at hd
            · simp [declarationsOf] at hd
            · simpa [declarationsOf] using hd
          have hsame : a.declared = b.declared := by rw [← heq, hd]; rfl
          refine hfresh (List.mem_map.2 ⟨b, hb, ?_⟩)
          exact TagAttribute.name_eq_of_declared hsame hdeclared
      rw [ih has hasNames hasReserved _ _ hlater]
      have hsplit : declarationsOf (a :: as) = declarationsOf [a] ++ declarationsOf as := by
        rw [declarationsOf_cons h, declarationsOf_cons h]
        split <;> simp [declarationsOf]
      simp [h, hsplit]

end

theorem resolveAttribute?_eq {scope : Scope} {a : TagAttribute}
    (h : a.name.qualifier = [] ∨ a.name.qualifier = xmlQualifier ∨
      (scope.lookup a.name.qualifier).isSome = true) :
    resolveAttribute? scope a.name a.content = some (a.resolved scope) := by
  unfold resolveAttribute? TagAttribute.resolved spaceOf
  by_cases hxml : a.name.qualifier = xmlQualifier
  · rw [if_pos hxml, if_pos hxml]
  · rw [if_neg hxml, if_neg hxml]
    by_cases hempty : a.name.qualifier.isEmpty
    · rw [if_pos hempty, if_pos hempty]
    · have hsome : (scope.lookup a.name.qualifier).isSome = true :=
        (h.resolve_left fun hnil => hempty (List.isEmpty_iff.2 hnil)).resolve_left hxml
      obtain ⟨space, hspace⟩ := Option.isSome_iff_exists.1 hsome
      rw [if_neg hempty, if_neg hempty, hspace]
      rfl

theorem resolveAttributes?_eq {scope : Scope} {as : List TagAttribute}
    (hqualifiers : ∀ a ∈ as, a.name.qualifier = [] ∨ a.name.qualifier = xmlQualifier ∨
      (scope.lookup a.name.qualifier).isSome = true)
    (resolved : List Attribute)
    (hdistinct : (resolved ++ as.map (·.resolved scope)).Pairwise fun a b =>
      (a.space?, a.localName) ≠ (b.space?, b.localName)) :
    resolveAttributes? scope resolved (as.map fun a => (a.name, a.content)) =
      some (resolved ++ as.map (·.resolved scope)) := by
  induction as generalizing resolved with
  | nil => simp [resolveAttributes?]
  | cons a as ih =>
    obtain ⟨ha, has⟩ := List.forall_mem_cons.1 hqualifiers
    have hfresh : (resolved.any fun b => b.space? = (a.resolved scope).space? &&
        b.localName = (a.resolved scope).localName) = false := by
      refine List.any_eq_false.2 fun b hb hsame => ?_
      have hne := (List.pairwise_append.1 hdistinct).2.2 b hb _ List.mem_cons_self
      simp only [Bool.and_eq_true, decide_eq_true_eq] at hsame
      exact hne (Prod.ext hsame.1 hsame.2)
    have hrest := ih has (resolved ++ [a.resolved scope]) (by simpa using hdistinct)
    rw [List.map_cons, resolveAttributes?, resolveAttribute?_eq ha, Option.bind_eq_bind,
      Option.bind_some, hfresh, if_neg Bool.false_ne_true, hrest]
    simp

namespace Tag

def content (scope : Scope) (t : Tag) (children : List Content) : Content :=
  .element t.name.localName (t.others.map (·.resolved (t.scopeInside scope))) children

end Tag

theorem open?_raw {scope : Scope} {t : Tag} (hvalid : t.Valid) (h : t.Resolves scope) :
    open? scope t.name (t.attributes.map TagAttribute.raw) =
      some ⟨t.name, t.others.map (·.resolved (t.scopeInside scope)), t.scopeInside scope, []⟩ := by
  have hdeclare := declare?_raw hvalid.attributes h.names h.reserved [] []
    (fun _ _ _ _ _ hd => absurd hd List.not_mem_nil)
  have hresolve : resolveAttributes? (t.scopeInside scope) []
      (t.others.map fun a => (a.name, a.content)) =
        some (t.others.map (·.resolved (t.scopeInside scope))) := by
    refine resolveAttributes?_eq h.qualifiers [] ?_
    rw [List.nil_append, List.pairwise_map]
    exact List.pairwise_map.1 h.distinct
  have hname : (t.name.qualifier.isEmpty ||
      ((t.scopeInside scope).lookup t.name.qualifier).isSome) = true := by
    rcases h.element.2 with hnil | hsome
    · simp [hnil]
    · simp [hsome]
  rw [open?, if_neg h.element.1, hdeclare, Option.bind_eq_bind, Option.bind_some]
  simp only [List.nil_append]
  have hscope : declarationsOf t.attributes ++ scope = t.scopeInside scope := rfl
  have hothers : t.attributes.filter (!·.isDeclaration) = t.others := rfl
  rw [hscope, hothers, hresolve, Option.bind_eq_bind, Option.bind_some, if_pos hname]

end SchemaDiagram.Xml
