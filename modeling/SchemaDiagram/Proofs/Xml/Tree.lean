import SchemaDiagram.Proofs.Xml.Declaration
import SchemaDiagram.Proofs.Xml.Namespaces

set_option autoImplicit false

namespace SchemaDiagram.Xml

namespace Forest

def Resolves (scope : Scope) : Forest → Prop
  | nil => True
  | data _ rest => rest.Resolves scope
  | literal _ rest => rest.Resolves scope
  | remark _ rest => rest.Resolves scope
  | element tag inner rest =>
    tag.Resolves scope ∧ inner.Resolves (tag.scopeInside scope) ∧ rest.Resolves scope

instance decidableResolves (scope : Scope) : DecidablePred (Resolves scope)
  | nil => .isTrue trivial
  | data _ rest => decidableResolves scope rest
  | literal _ rest => decidableResolves scope rest
  | remark _ rest => decidableResolves scope rest
  | element tag inner rest =>
    have := decidableResolves (tag.scopeInside scope) inner
    have := decidableResolves scope rest
    inferInstanceAs (Decidable (_ ∧ _))

def dataOf (glyphs : List Glyph) : Text := dataText [] false (glyphs.map Glyph.written)

/-- The children of an element, in reverse, with those that a tree adds. -/
def addTo (scope : Scope) (children : List Content) : Forest → List Content
  | nil => children
  | data glyphs rest => rest.addTo scope (addText (dataOf glyphs) children)
  | literal content rest => rest.addTo scope (addText (dataOf (content.map .plain)) children)
  | remark _ rest => rest.addTo scope (.remark :: children)
  | element tag inner rest =>
    rest.addTo scope
      (tag.content scope (inner.addTo (tag.scopeInside scope) []).reverse :: children)

end Forest

open Progress

namespace OpenElement

def withChildren (e : OpenElement) (children : List Content) : OpenElement :=
  { e with children := children }

end OpenElement

section
variable {current : OpenElement} {children : List Content} {outer : List OpenElement}

theorem step?_data {gs : List Glyph} (h : ∀ g ∈ gs, g.Valid) :
    step? (.inside (current.withChildren children) outer) (.text (Glyph.texts gs)) =
      some (.inside (current.withChildren (addText (Forest.dataOf gs) children)) outer) := by
  rw [step?, characters?_texts h]
  rfl

theorem step?_literal (content : Text) :
    step? (.inside (current.withChildren children) outer) (.literalText content) =
      some (.inside
        (current.withChildren (addText (Forest.dataOf (content.map .plain)) children)) outer) := by
  have hwritten : (content.map Glyph.plain).map Glyph.written = content.map (⟨·, false⟩) := by
    simp [Glyph.written, Glyph.char, Glyph.isReference]
  rw [step?, Forest.dataOf, hwritten]
  rfl

theorem step?_remark : step? (.inside (current.withChildren children) outer) .remark =
    some (.inside (current.withChildren (.remark :: children)) outer) := rfl

end

def Tag.opened (scope : Scope) (t : Tag) : OpenElement :=
  ⟨t.name, t.others.map (·.resolved (t.scopeInside scope)), t.scopeInside scope, []⟩

theorem foldlM_tag {tag : Tag} {inner : Forest} (htag : tag.Valid)
    (hempty : tag.endGap = none → inner = .nil) {scope : Scope} (h : tag.Resolves scope)
    (outer : List OpenElement)
    (hinner : inner.pieces.foldlM step? (.inside (tag.opened scope) outer) =
      some (.inside ((tag.opened scope).withChildren
        (inner.addTo (tag.scopeInside scope) [])) outer)) :
    ∃ opened, start? scope outer tag.name (tag.attributes.map TagAttribute.raw)
      tag.endGap.isNone = some opened ∧
        (inner.pieces ++ tag.endPieces).foldlM step? opened = some (addElement
          (tag.content scope (inner.addTo (tag.scopeInside scope) []).reverse) outer) := by
  rw [start?, open?_raw htag h]
  unfold Tag.endPieces
  cases hgap : tag.endGap with
  | none =>
    obtain rfl := hempty hgap
    exact ⟨_, rfl, rfl⟩
  | some gap =>
    refine ⟨.inside (tag.opened scope) outer, rfl, ?_⟩
    rw [List.foldlM_append, hinner]
    have hend : step? (.inside ((tag.opened scope).withChildren
        (inner.addTo (tag.scopeInside scope) [])) outer) (.endTag tag.name) =
          some (addElement
            (tag.content scope (inner.addTo (tag.scopeInside scope) []).reverse) outer) :=
      if_pos rfl
    simp [hend]

theorem foldlM_pieces {f : Forest} (hvalid : f.Valid) {current : OpenElement}
    (hresolves : f.Resolves current.scope) (children : List Content) (outer : List OpenElement) :
    f.pieces.foldlM step? (.inside (current.withChildren children) outer) =
      some (.inside (current.withChildren (f.addTo current.scope children)) outer) := by
  induction f generalizing current children outer with
  | nil => rfl
  | data glyphs rest ih =>
    obtain ⟨-, hglyphs, -, -, hrest⟩ := hvalid
    rw [Forest.pieces, List.foldlM_cons, step?_data hglyphs, Option.bind_eq_bind, Option.bind_some]
    exact ih hrest hresolves _ outer
  | literal content rest ih =>
    rw [Forest.pieces, List.foldlM_cons, step?_literal, Option.bind_eq_bind, Option.bind_some]
    exact ih hvalid.2 hresolves _ outer
  | remark r rest ih =>
    rw [Forest.pieces, List.foldlM_cons, step?_remark, Option.bind_eq_bind, Option.bind_some]
    exact ih hvalid.2 hresolves _ outer
  | element tag inner rest ihInner ihRest =>
    obtain ⟨htag, hempty, hinner, hrest⟩ := hvalid
    obtain ⟨htagResolves, hinnerResolves, hrestResolves⟩ := hresolves
    have hinside := @ihInner hinner (tag.opened current.scope) hinnerResolves []
      (current.withChildren children :: outer)
    obtain ⟨opened, hopened, hclosed⟩ := foldlM_tag htag hempty htagResolves _ hinside
    have hpieces : (Forest.element tag inner rest).pieces =
        .startTag tag.name (tag.attributes.map TagAttribute.raw) tag.endGap.isNone ::
          ((inner.pieces ++ tag.endPieces) ++ rest.pieces) := by
      simp [Forest.pieces]
    have hstart : step? (.inside (current.withChildren children) outer)
        (.startTag tag.name (tag.attributes.map TagAttribute.raw) tag.endGap.isNone) =
          some opened := hopened
    rw [hpieces, List.foldlM_cons, hstart, Option.bind_eq_bind, Option.bind_some,
      List.foldlM_append, hclosed, Option.bind_eq_bind, Option.bind_some]
    exact ihRest hrest hrestResolves _ outer

theorem foldlM_margin {m : Margin} (h : m.Valid) {outside : Progress}
    (houtside : outside = .beforeRoot ∨ ∃ root, outside = .afterRoot root) :
    m.pieces.foldlM step? outside = some outside := by
  have hgap : ∀ gap : Text, AreSpaces gap →
      (Margin.gapPieces gap).foldlM step? outside = some outside := by
    intro gap hgap
    unfold Margin.gapPieces
    split
    · rfl
    · have hall : gap.all isSpace = true := List.all_eq_true.2 hgap
      rcases houtside with rfl | ⟨root, rfl⟩ <;> simp [step?, hall]
  have hremark : step? outside .remark = some outside := by
    rcases houtside with rfl | ⟨root, rfl⟩ <;> rfl
  obtain ⟨remarks, gap⟩ := m
  induction remarks with
  | nil => exact hgap gap h.gap
  | cons p remarks ih =>
    obtain ⟨hp, hremarks⟩ := List.forall_mem_cons.1 h.remarks
    have hrest := ih ⟨hremarks, h.gap⟩
    have hpieces : (Margin.mk (p :: remarks) gap).pieces =
        Margin.gapPieces p.1 ++ .remark :: (Margin.mk remarks gap).pieces := by
      simp [Margin.pieces]
    rw [hpieces, List.foldlM_append, hgap p.1 hp.1, Option.bind_eq_bind, Option.bind_some,
      List.foldlM_cons, hremark, Option.bind_eq_bind, Option.bind_some, hrest]

namespace Document

def content (d : Document) : Content :=
  d.tag.content [] (d.inner.addTo (d.tag.scopeInside []) []).reverse

def Resolves (d : Document) : Prop := (Forest.element d.tag d.inner .nil).Resolves []

instance : DecidablePred Resolves := fun _ => inferInstanceAs (Decidable (Forest.Resolves [] _))

def body (d : Document) : Text :=
  d.before.text ++ (d.tag.startText ++ (d.inner.text ++ (d.tag.endText ++ d.behind.text)))

def rootPieces (d : Document) : List Markup :=
  .startTag d.tag.name (d.tag.attributes.map TagAttribute.raw) d.tag.endGap.isNone ::
    (d.inner.pieces ++ d.tag.endPieces)

end Document

section
variable {d : Document}

theorem markups?_body (h : d.Valid) :
    markups? d.body = some (d.before.pieces ++ (d.rootPieces ++ d.behind.pieces)) := by
  obtain ⟨htag, hempty, hinner, -⟩ := h.root
  have hbehind : markups? d.behind.text = some d.behind.pieces := by
    simpa [markups?] using markups?_margin (s := []) h.behind rfl
  have hroot := markups?_element htag hempty (fun s => markups?_forest hinner) d.behind.text
  have hhead : (d.tag.startText ++ (d.inner.text ++ (d.tag.endText ++ d.behind.text))).head?.all
      (· = '<') = true := by
    simp [Tag.startText]
  rw [Document.body, markups?_margin h.before hhead, hroot, hbehind]
  rfl

theorem root?_pieces (h : d.Valid) (hresolves : d.Resolves) {passed : List Markup}
    (hpassed : passed = [] ∨ passed = [.remark]) :
    root? (passed ++ (d.before.pieces ++ (d.rootPieces ++ d.behind.pieces))) = some d.content := by
  obtain ⟨htag, hempty, hinner, -⟩ := h.root
  obtain ⟨htagResolves, hinnerResolves, -⟩ := hresolves
  have hinside := @foldlM_pieces _ hinner (d.tag.opened []) hinnerResolves [] []
  obtain ⟨opened, hopened, hclosed⟩ := foldlM_tag htag hempty htagResolves [] hinside
  have hstart : step? .beforeRoot (.startTag d.tag.name
      (d.tag.attributes.map TagAttribute.raw) d.tag.endGap.isNone) = some opened := hopened
  have hroot : d.rootPieces.foldlM step? .beforeRoot = some (.afterRoot d.content) := by
    rw [Document.rootPieces, List.foldlM_cons, hstart, Option.bind_eq_bind, Option.bind_some]
    exact hclosed
  have hbefore : passed.foldlM step? .beforeRoot = some .beforeRoot := by
    rcases hpassed with rfl | rfl <;> rfl
  have hall : (passed ++ (d.before.pieces ++ (d.rootPieces ++ d.behind.pieces))).foldlM step?
      .beforeRoot = some (.afterRoot d.content) := by
    rw [List.foldlM_append, hbefore, Option.bind_eq_bind, Option.bind_some, List.foldlM_append,
      foldlM_margin h.before (.inl rfl), Option.bind_eq_bind, Option.bind_some,
      List.foldlM_append, hroot, Option.bind_eq_bind, Option.bind_some,
      foldlM_margin h.behind (.inr ⟨_, rfl⟩)]
  rw [root?, hall]
  rfl

/-- Nothing is dropped at the beginning of a text: it has neither a mark nor a declaration. -/
structure IsPlainStart (s : Text) : Prop where
  mark : s.head? ≠ some '\uFEFF'
  declaration : after? "<?xml " s = none

theorem IsPlainStart.gap {gap s : Text} (hgap : AreSpaces gap) (hs : IsPlainStart s) :
    IsPlainStart (gap ++ s) := by
  cases gap with
  | nil => exact hs
  | cons g gap =>
    have hg := hgap g List.mem_cons_self
    simp only [isSpace, Bool.or_eq_true, decide_eq_true_eq] at hg
    rcases hg with ((rfl | rfl) | rfl) | rfl <;> exact ⟨by simp, by simp [after?]⟩

theorem isPlainStart_remark {r : Remark} (h : r.Valid) (s : Text) : IsPlainStart (r.text ++ s) where
  mark := by
    obtain ⟨t, ht⟩ := r.text_eq_cons
    simp [ht]
  declaration := after?_declaration_remark h s

theorem isPlainStart_startText {t : Tag} (h : t.Valid) (s : Text) :
    IsPlainStart (t.startText ++ s) := by
  obtain ⟨c, name, hc, hstart⟩ := QName.exists_text_eq_cons h.name
  obtain ⟨-, -, -, -, hquestion⟩ := mark_of_isNameStart hstart
  exact ⟨by simp [Tag.startText], by simp [Tag.startText, hc, after?, hquestion]⟩

theorem isPlainStart_body (h : d.Valid) : IsPlainStart d.body := by
  obtain ⟨htag, -⟩ := h.root
  have hroot := isPlainStart_startText htag
    (d.inner.text ++ (d.tag.endText ++ d.behind.text))
  unfold Document.body Margin.text
  cases hremarks : d.before.remarks with
  | nil => exact hroot.gap h.before.gap
  | cons p remarks =>
    obtain ⟨hp, hr⟩ := h.before.remarks p (by simp [hremarks])
    simpa using (isPlainStart_remark hr _).gap hp

/-- Reading goes on with the pieces behind the mark and the declaration. -/
theorem exists_parse?_eq (h : d.Valid) : ∃ passed, (passed = [] ∨ passed = [.remark]) ∧
    parse? d.text =
      root? (passed ++ (d.before.pieces ++ (d.rootPieces ++ d.behind.pieces))) := by
  have hbody := isPlainStart_body h
  obtain ⟨passed, hpassed, hread⟩ := exists_markups?_declaration h.declaration hbody.declaration
  have htext : d.text = (if d.hasMark then ['\uFEFF'] else []) ++
      ((d.declaration.elim [] Declaration.text) ++ d.body) := by
    simp [Document.text, Document.body, Forest.text]
  have hhead : ((d.declaration.elim [] Declaration.text) ++ d.body).head? ≠ some '\uFEFF' := by
    cases d.declaration with
    | none => exact hbody.mark
    | some x => simp [Declaration.text]
  have hmark : (if d.text.head? = some '\uFEFF' then d.text.drop 1 else d.text) =
      (d.declaration.elim [] Declaration.text) ++ d.body := by
    rw [htext]
    cases d.hasMark with
    | true => rfl
    | false => exact if_neg hhead
  refine ⟨passed, hpassed, ?_⟩
  calc
    parse? d.text = ((skipDeclaration? ((d.declaration.elim [] Declaration.text) ++ d.body)).bind
        markups?).bind root? := by
      rw [parse?, hmark, Option.bind_assoc]
      rfl
    _ = root? (passed ++ (d.before.pieces ++ (d.rootPieces ++ d.behind.pieces))) := by
      rw [hread, markups?_body h]
      rfl

theorem parse?_text (h : d.Valid) (hresolves : d.Resolves) : parse? d.text = some d.content := by
  obtain ⟨passed, hpassed, hparse⟩ := exists_parse?_eq h
  rw [hparse, root?_pieces h hresolves hpassed]

end

end SchemaDiagram.Xml
