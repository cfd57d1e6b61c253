import SchemaDiagram.Xml.Reference

/-!
The element tree of a document with namespaces. A document without a document type is read if its
pieces fit together: one root element, matching tags, declared qualifiers, and no attribute given
twice.
-/

set_option autoImplicit false

namespace SchemaDiagram.Xml

structure Attribute where
  space? : Option Text
  localName : Text
  value : Text
  deriving DecidableEq, Repr

/-- What an element holds; elements are known by their names without qualifier. -/
inductive Content where
  | element (name : Text) (attributes : List Attribute) (children : List Content)
  | text (content : Text)
  /-- A comment or a processing instruction, which separates the texts around it. -/
  | remark
  deriving Repr

namespace Content

def name? : Content → Option Text
  | element name _ _ => some name
  | _ => none

def children : Content → List Content
  | element _ _ children => children
  | _ => []

def text? (c : Content) : Option Text :=
  match c.children with
  | text content :: _ => some content
  | _ => none

def attribute? (c : Content) (name : Text) : Option Text :=
  match c with
  | element _ attributes _ =>
    (attributes.find? fun a => a.space?.isNone && a.localName = name).map (·.value)
  | _ => none

end Content

/-- The namespaces that are declared, nearest first; the empty qualifier is the default. -/
abbrev Scope := List (Text × Text)

def xmlQualifier : Text := "xml"

def declarationQualifier : Text := "xmlns"

def xmlNamespace : Text := "http://www.w3.org/XML/1998/namespace"

def declarationNamespace : Text := "http://www.w3.org/2000/xmlns/"

/-- The namespaces that a start tag declares and its other attributes, given both so far. The two
reserved namespaces keep their qualifiers, and no qualifier is declared twice. -/
def declare? : Scope → List (QName × Text) → List RawAttribute →
    Option (Scope × List (QName × Text))
  | own, others, [] => some (own, others)
  | own, others, a :: rest => do
    let value := attributeText (← characters? none a.value)
    if a.name.qualifier = declarationQualifier then
      let name := a.name.localName
      if value = declarationNamespace || own.any (·.1 = name) ||
          (name = xmlQualifier) != (value = xmlNamespace) then none
      else if value = xmlNamespace then declare? own others rest
      else declare? (own ++ [(name, value)]) others rest
    else if a.name.localName = declarationQualifier then
      if value = declarationNamespace || value = xmlNamespace then none
      else declare? (own ++ [([], value)]) others rest
    else declare? own (others ++ [(a.name, value)]) rest

def resolveAttribute? (scope : Scope) (name : QName) (value : Text) : Option Attribute :=
  if name.qualifier = xmlQualifier then some ⟨some xmlNamespace, name.localName, value⟩
  else if name.qualifier.isEmpty then some ⟨none, name.localName, value⟩
  else (scope.lookup name.qualifier).map fun space => ⟨some space, name.localName, value⟩

def resolveAttributes? (scope : Scope) : List Attribute → List (QName × Text) →
    Option (List Attribute)
  | resolved, [] => some resolved
  | resolved, (name, value) :: rest => do
    let a ← resolveAttribute? scope name value
    if resolved.any fun b => b.space? = a.space? && b.localName = a.localName then none
    else resolveAttributes? scope (resolved ++ [a]) rest

/-- An element that is not closed yet, with its children so far in reverse. -/
structure OpenElement where
  name : QName
  attributes : List Attribute
  scope : Scope
  children : List Content

def OpenElement.close (e : OpenElement) : Content :=
  .element e.name.localName e.attributes e.children.reverse

def open? (scope : Scope) (name : QName) (attributes : List RawAttribute) : Option OpenElement := do
  if name.qualifier = declarationQualifier then none
  else
    let (own, others) ← declare? [] [] attributes
    let scope := own ++ scope
    let attributes ← resolveAttributes? scope [] others
    if name.qualifier.isEmpty || (scope.lookup name.qualifier).isSome then
      some ⟨name, attributes, scope, []⟩
    else none

def addText (content : Text) : List Content → List Content
  | .text before :: rest => .text (before ++ content) :: rest
  | children => .text content :: children

inductive Progress where
  | beforeRoot
  | inside (current : OpenElement) (outer : List OpenElement)
  | afterRoot (root : Content)

namespace Progress

def addChild (current : OpenElement) (outer : List OpenElement) (child : Content) : Progress :=
  .inside { current with children := child :: current.children } outer

def addElement (element : Content) : List OpenElement → Progress
  | [] => .afterRoot element
  | e :: outer => addChild e outer element

def start? (scope : Scope) (outer : List OpenElement) (name : QName)
    (attributes : List RawAttribute) (isEmpty : Bool) : Option Progress :=
  (open? scope name attributes).map fun e =>
    if isEmpty then addElement e.close outer else .inside e outer

def step? : Progress → Markup → Option Progress
  | .inside current outer, piece =>
    match piece with
    | .startTag name attributes isEmpty =>
      start? current.scope (current :: outer) name attributes isEmpty
    | .endTag name => if name = current.name then some (addElement current.close outer) else none
    | .text content =>
      (characters? none content).map fun cs =>
        .inside { current with children := addText (dataText [] false cs) current.children } outer
    | .literalText content =>
      let cs := content.map (⟨·, false⟩)
      some (.inside { current with children := addText (dataText [] false cs) current.children }
        outer)
    | .remark => some (addChild current outer .remark)
  | .beforeRoot, .startTag name attributes isEmpty => start? [] [] name attributes isEmpty
  | .beforeRoot, .endTag _ => none
  | .afterRoot _, .startTag _ _ _ => none
  | .afterRoot _, .endTag _ => none
  | outside, .text content => if content.all isSpace then some outside else none
  | _, .literalText _ => none
  | outside, .remark => some outside

end Progress

def root? (pieces : List Markup) : Option Content := do
  match ← pieces.foldlM Progress.step? .beforeRoot with
  | .afterRoot root => some root
  | _ => none

def declarationSpaces? (s : Text) : Option Text :=
  if s.head?.any isSpace || (after? "?>" s).isSome then some (skipSpaces s) else none

def declaration? (s : Text) : Option Text := do
  let s ← declarationSpaces? s
  let _ ← after? "version" s
  let (_, s) ← attribute? s
  let s ← declarationSpaces? s
  let s ←
    if (after? "encoding" s).isSome then do
      let (_, s) ← attribute? s
      declarationSpaces? s
    else some s
  let s ←
    if (after? "standalone" s).isSome then do
      let (_, s) ← attribute? s
      some s
    else some s
  after? "?>" (skipSpaces s)

def skipDeclaration? (s : Text) : Option Text :=
  if (after? "<?xml " s).isSome then declaration? (s.drop 5) else some s

/-- The root element of a document; a byte order mark may stand before everything. -/
def parse? (s : Text) : Option Content := do
  let s := if s.head? = some '\uFEFF' then s.drop 1 else s
  root? (← markups? (← skipDeclaration? s))

end SchemaDiagram.Xml
