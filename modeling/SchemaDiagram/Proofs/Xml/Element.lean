import Mathlib.Data.List.Find
import Mathlib.Data.List.Forall2
import SchemaDiagram.Proofs.Xml.Tree

set_option autoImplicit false

namespace SchemaDiagram.Xml

structure Element where
  tag : Tag
  inner : Forest
  deriving DecidableEq

namespace Forest

def elements : Forest → List Element
  | nil => []
  | data _ rest => rest.elements
  | literal _ rest => rest.elements
  | remark _ rest => rest.elements
  | element tag inner rest => ⟨tag, inner⟩ :: rest.elements

def leadingText : Forest → Text
  | nil => []
  | data glyphs rest => dataOf glyphs ++ rest.leadingText
  | literal content rest => dataOf (content.map .plain) ++ rest.leadingText
  | remark _ _ => []
  | element _ _ _ => []

end Forest

namespace Element

def name (e : Element) : Text := e.tag.name.localName

def children (e : Element) : List Element := e.inner.elements

def named (name : Text) (e : Element) : List Element := e.children.filter fun c => c.name = name

def text (e : Element) : Text := e.inner.leadingText

def attribute? (e : Element) (name : Text) : Option Text :=
  (e.tag.attributes.find? fun a => a.name = ⟨[], name⟩).map (·.content)

end Element

namespace Document

def root (d : Document) : Element := ⟨d.tag, d.inner⟩

end Document

def Content.isElement (c : Content) : Bool := c.name?.isSome

/-- The content of an element as it was written, elements in it included. -/
inductive Reads : Content → Element → Prop
  | intro {c : Content} {e : Element} : c.name? = some e.name →
    (∀ name, name ≠ declarationQualifier → c.attribute? name = e.attribute? name) →
    c.text?.getD [] = e.text →
    List.Forall₂ Reads (c.children.filter Content.isElement) e.children → Reads c e

theorem space?_resolved {scope : Scope} {a : TagAttribute}
    (h : a.name.qualifier = [] ∨ a.name.qualifier = xmlQualifier ∨
      (scope.lookup a.name.qualifier).isSome = true) :
    (a.resolved scope).space?.isNone = a.name.qualifier.isEmpty := by
  unfold TagAttribute.resolved spaceOf
  by_cases hxml : a.name.qualifier = xmlQualifier
  · rw [hxml]
    rfl
  · dsimp only
    rw [if_neg hxml]
    by_cases hempty : a.name.qualifier.isEmpty
    · rw [if_pos hempty, hempty]
      rfl
    · have hne : a.name.qualifier ≠ [] := fun hnil => hempty (List.isEmpty_iff.2 hnil)
      obtain ⟨space, hspace⟩ := Option.isSome_iff_exists.1 ((h.resolve_left hne).resolve_left hxml)
      rw [if_neg hempty, hspace, Bool.eq_false_iff.2 hempty]
      rfl

theorem attribute?_content {scope : Scope} {t : Tag} (h : t.Resolves scope) {name : Text}
    (hname : name ≠ declarationQualifier) (children : List Content) (inner : Forest) :
    (t.content scope children).attribute? name = Element.attribute? ⟨t, inner⟩ name := by
  -- Among the attributes that are no declarations, those that are looked for are the same ones.
  have hsame : ∀ a ∈ t.attributes, (!a.isDeclaration &&
      ((a.resolved (t.scopeInside scope)).space?.isNone &&
        (a.resolved (t.scopeInside scope)).localName = name)) =
          decide (a.name = ⟨[], name⟩) := by
    intro a ha
    have hlocal : (a.resolved (t.scopeInside scope)).localName = a.name.localName := rfl
    cases hdeclaration : a.isDeclaration with
    | true =>
      have hother : a.name ≠ ⟨[], name⟩ := by
        intro heq
        have hempty : ([] : Text) ≠ declarationQualifier := by decide
        simp [TagAttribute.isDeclaration, heq, hempty, hname] at hdeclaration
      simp [hother]
    | false =>
      have hmem : a ∈ t.others := List.mem_filter.2 ⟨ha, by simp [hdeclaration]⟩
      rw [space?_resolved (h.qualifiers a hmem), hlocal]
      cases a.name with
      | mk qualifier localName => cases qualifier <;> simp
  have hfind : (t.others.map (·.resolved (t.scopeInside scope))).find?
      (fun b => b.space?.isNone && b.localName = name) =
        (t.attributes.find? fun a => a.name = ⟨[], name⟩).map
          (·.resolved (t.scopeInside scope)) := by
    rw [List.find?_map, Tag.others, List.find?_filter]
    refine congrArg _ (List.find?_congr fun a ha => ?_)
    rw [← hsame a ha, Bool.decide_and, Bool.decide_eq_true, Bool.decide_eq_true]
    rfl
  unfold Element.attribute? Tag.content Content.attribute?
  dsimp only
  rw [hfind, Option.map_map]
  rfl

/-- The text with which reversed children begin. -/
def beginning (children : List Content) : Text :=
  match children.getLast? with
  | some (.text content) => content
  | _ => []

/-- The beginning of reversed children is over: no text can be added to it. -/
def Settled (children : List Content) : Prop := children ≠ [] ∧ ∀ t, children ≠ [.text t]

theorem settled_cons {children : List Content} (h : children ≠ []) (c : Content) :
    Settled (c :: children) ∧ beginning (c :: children) = beginning children := by
  obtain ⟨d, rest, rfl⟩ := List.exists_cons_of_ne_nil h
  exact ⟨⟨by simp, by simp⟩, by simp [beginning]⟩

theorem Settled.addText {children : List Content} (h : Settled children) (content : Text) :
    Settled (addText content children) ∧
      beginning (Xml.addText content children) = beginning children := by
  obtain ⟨hne, hlone⟩ := h
  unfold Xml.addText
  split
  · rename_i before rest
    have hrest : rest ≠ [] := by
      rintro rfl
      exact hlone before rfl
    refine ⟨(settled_cons hrest _).1, ?_⟩
    rw [(settled_cons hrest _).2, (settled_cons hrest _).2]
  · exact settled_cons hne _

theorem Settled.beginning_addTo {f : Forest} {scope : Scope} {children : List Content}
    (h : Settled children) : beginning (f.addTo scope children) = beginning children := by
  induction f generalizing children with
  | nil => rfl
  | data glyphs rest ih =>
    obtain ⟨hsettled, hsame⟩ := h.addText (Forest.dataOf glyphs)
    exact (ih hsettled).trans hsame
  | literal content rest ih =>
    obtain ⟨hsettled, hsame⟩ := h.addText (Forest.dataOf (content.map .plain))
    exact (ih hsettled).trans hsame
  | remark r rest ih =>
    obtain ⟨hsettled, hsame⟩ := settled_cons h.1 .remark
    exact (ih hsettled).trans hsame
  | element tag inner rest _ ih =>
    obtain ⟨hsettled, hsame⟩ := settled_cons h.1
      (tag.content scope (inner.addTo (tag.scopeInside scope) []).reverse)
    exact (ih hsettled).trans hsame

theorem beginning_addTo_text {f : Forest} {scope : Scope} (content : Text) :
    beginning (f.addTo scope [.text content]) = content ++ f.leadingText := by
  induction f generalizing content with
  | nil => simp [Forest.addTo, Forest.leadingText, beginning]
  | data glyphs rest ih =>
    rw [Forest.addTo, addText, ih, Forest.leadingText, List.append_assoc]
  | literal c rest ih =>
    rw [Forest.addTo, addText, ih, Forest.leadingText, List.append_assoc]
  | remark r rest _ =>
    obtain ⟨hsettled, hsame⟩ := settled_cons (List.cons_ne_nil (.text content) []) .remark
    rw [Forest.addTo, hsettled.beginning_addTo, hsame, Forest.leadingText, List.append_nil]
    rfl
  | element tag inner rest _ _ =>
    obtain ⟨hsettled, hsame⟩ := settled_cons (List.cons_ne_nil (.text content) [])
      (tag.content scope (inner.addTo (tag.scopeInside scope) []).reverse)
    rw [Forest.addTo, hsettled.beginning_addTo, hsame, Forest.leadingText, List.append_nil]
    rfl

theorem beginning_addTo (f : Forest) (scope : Scope) :
    beginning (f.addTo scope []) = f.leadingText := by
  cases f with
  | nil => rfl
  | data glyphs rest => exact beginning_addTo_text _
  | literal c rest => exact beginning_addTo_text _
  | remark r rest =>
    have hsettled : Settled [.remark] := ⟨nofun, nofun⟩
    exact hsettled.beginning_addTo
  | element tag inner rest =>
    have hsettled : Settled [tag.content scope (inner.addTo (tag.scopeInside scope) []).reverse] :=
      ⟨nofun, nofun⟩
    exact hsettled.beginning_addTo

theorem text?_content (scope : Scope) (t : Tag) (children : List Content) :
    (t.content scope children.reverse).text?.getD [] = beginning children := by
  unfold Content.text? beginning
  rw [List.getLast?_eq_head?_reverse]
  cases h : children.reverse with
  | nil => simp [Tag.content, Content.children]
  | cons c cs => cases c <;> simp [Tag.content, Content.children]

theorem filter_addText (content : Text) (children : List Content) :
    (addText content children).filter Content.isElement = children.filter Content.isElement := by
  unfold addText
  split
  · rfl
  · exact List.filter_cons_of_neg nofun

theorem exists_filter_addTo {f : Forest} {scope : Scope} (h : f.Resolves scope)
    (children : List Content) : ∃ cs, (f.addTo scope children).filter Content.isElement =
      cs.reverse ++ children.filter Content.isElement ∧ List.Forall₂ Reads cs f.elements := by
  induction f generalizing scope children with
  | nil => exact ⟨[], rfl, .nil⟩
  | data glyphs rest ih =>
    obtain ⟨cs, hcs, hreads⟩ := ih h (addText (Forest.dataOf glyphs) children)
    exact ⟨cs, by rw [Forest.addTo, hcs, filter_addText], hreads⟩
  | literal content rest ih =>
    obtain ⟨cs, hcs, hreads⟩ := ih h (addText (Forest.dataOf (content.map .plain)) children)
    exact ⟨cs, by rw [Forest.addTo, hcs, filter_addText], hreads⟩
  | remark r rest ih => exact ih h (.remark :: children)
  | element tag inner rest ihInner ihRest =>
    obtain ⟨htag, hinner, hrest⟩ := h
    obtain ⟨inside, hinside, hreadsInside⟩ := ihInner hinner []
    obtain ⟨cs, hcs, hreads⟩ := ihRest hrest
      (tag.content scope (inner.addTo (tag.scopeInside scope) []).reverse :: children)
    refine ⟨tag.content scope (inner.addTo (tag.scopeInside scope) []).reverse :: cs, ?_, ?_⟩
    · rw [Forest.addTo, hcs, List.filter_cons_of_pos rfl]
      simp
    · refine .cons (.intro rfl (fun name hname => attribute?_content htag hname _ inner) ?_ ?_)
        hreads
      · rw [text?_content, beginning_addTo]
        rfl
      · have hchildren : (inner.addTo (tag.scopeInside scope) []).reverse.filter
            Content.isElement = inside := by
          rw [List.filter_reverse, hinside]
          simp
        rw [Tag.content, Content.children, hchildren]
        exact hreadsInside

theorem reads_content {d : Document} (h : d.Resolves) : Reads d.content d.root := by
  obtain ⟨cs, hcs, hreads⟩ := exists_filter_addTo h []
  have hall : [d.content] = cs.reverse ++ [] := hcs
  have hcs : cs = [d.content] := by simpa using (congrArg List.reverse hall).symm
  rw [hcs] at hreads
  exact (List.forall₂_cons.1 hreads).1

end SchemaDiagram.Xml
