import Mathlib.Tactic.MkIffOfInductiveProp
import SchemaDiagram.Proofs.Xml.Glyph
import SchemaDiagram.Xml.Markup

/-!
Documents as trees of what is written, down to the spaces in tags and the quotes of attributes, and
the text that each of them is. A document has no document type. What is asked of the pieces of a
document for themselves is said here (`Document.Valid`); namespaces are another matter.
-/

set_option autoImplicit false

namespace SchemaDiagram.Xml

def isNamePart (s : Text) : Bool :=
  s.head?.any isNameStart && s.all fun c => isNameChar c && c ≠ ':'

namespace QName

def text (q : QName) : Text :=
  if q.qualifier.isEmpty then q.localName else q.qualifier ++ ':' :: q.localName

def isValid (q : QName) : Bool :=
  (q.qualifier.isEmpty || isNamePart q.qualifier) && isNamePart q.localName

end QName

/-- Behind the content the mark can be found: it does not come earlier. -/
def Precedes (content mark : Text) : Prop :=
  (∀ c ∈ content, isAllowed c = true) ∧ ¬ mark <:+: content ++ mark.dropLast

instance (content mark : Text) : Decidable (Precedes content mark) :=
  inferInstanceAs (Decidable (_ ∧ _))

inductive Remark where
  | comment (content : Text)
  | instruction (target content : Text)
  deriving DecidableEq

namespace Remark

def text : Remark → Text
  | comment content => ['<', '!', '-', '-'] ++ (content ++ ['-', '-', '>'])
  | instruction target content => ['<', '?'] ++ (target ++ (content ++ ['?', '>']))

/-- Two hyphens do not stand in a comment, nor one at its end. The name for declarations is no
target. -/
def Valid : Remark → Prop
  | comment content => Precedes content "--"
  | instruction target content => target.head?.any isNameStart = true ∧
    (∀ c ∈ target, isNameChar c = true) ∧ target ≠ "xml" ∧ content.head?.all isSpace = true ∧
    Precedes content "?>"

instance : DecidablePred Valid
  | comment _ => inferInstanceAs (Decidable (Precedes _ _))
  | instruction _ _ => inferInstanceAs (Decidable (_ ∧ _))

end Remark

structure TagAttribute where
  gap : Text := [' ']
  name : QName
  beforeSign : Text := []
  behindSign : Text := []
  quote : Char := '"'
  value : List Glyph
  deriving DecidableEq

def AreSpaces (s : Text) : Prop := ∀ c ∈ s, isSpace c = true

instance (s : Text) : Decidable (AreSpaces s) := inferInstanceAs (Decidable (∀ c ∈ s, _))

namespace TagAttribute

def bareText (a : TagAttribute) : Text :=
  a.name.text ++ a.beforeSign ++ '=' :: a.behindSign ++
    a.quote :: (Glyph.texts a.value ++ [a.quote])

def text (a : TagAttribute) : Text := a.gap ++ a.bareText

def raw (a : TagAttribute) : RawAttribute := ⟨a.name, Glyph.texts a.value⟩

@[mk_iff]
structure Valid (a : TagAttribute) : Prop where
  gap : AreSpaces a.gap
  gap_ne_nil : a.gap ≠ []
  name : a.name.isValid = true
  beforeSign : AreSpaces a.beforeSign
  behindSign : AreSpaces a.behindSign
  quote : a.quote = '"' ∨ a.quote = '\''
  value : ∀ g ∈ a.value, g.Valid ∧ g ≠ .plain a.quote

instance : DecidablePred Valid := fun a => decidable_of_iff _ (valid_iff a).symm

end TagAttribute

/-- The tags of an element. The gap stands behind the attributes; where there is an end tag,
another one stands in it. -/
structure Tag where
  name : QName
  attributes : List TagAttribute := []
  gap : Text := []
  endGap : Option Text := some []
  deriving DecidableEq

namespace Tag

def startEnd (isEmpty : Bool) : Text := if isEmpty then ['/', '>'] else ['>']

def startText (t : Tag) : Text :=
  '<' :: (t.name.text ++ (t.attributes.flatMap TagAttribute.text ++ (t.gap ++
    startEnd t.endGap.isNone)))

def endText (t : Tag) : Text :=
  match t.endGap with
  | none => []
  | some gap => '<' :: '/' :: (t.name.text ++ (gap ++ ['>']))

@[mk_iff]
structure Valid (t : Tag) : Prop where
  name : t.name.isValid = true
  attributes : ∀ a ∈ t.attributes, a.Valid
  gap : AreSpaces t.gap
  endGap : ∀ gap ∈ t.endGap, AreSpaces gap

instance : DecidablePred Valid := fun t => decidable_of_iff _ (valid_iff t).symm

end Tag

/-- What stands between two tags that belong together, in its order. -/
inductive Forest where
  | nil
  | data (glyphs : List Glyph) (rest : Forest)
  | literal (content : Text) (rest : Forest)
  | remark (r : Remark) (rest : Forest)
  | element (tag : Tag) (inner rest : Forest)
  deriving DecidableEq

def literalText (content : Text) : Text :=
  ['<', '!', '[', 'C', 'D', 'A', 'T', 'A', '['] ++ (content ++ [']', ']', '>'])

namespace Forest

def text : Forest → Text
  | nil => []
  | data glyphs rest => Glyph.texts glyphs ++ rest.text
  | literal content rest => literalText content ++ rest.text
  | remark r rest => r.text ++ rest.text
  | element tag inner rest => tag.startText ++ (inner.text ++ (tag.endText ++ rest.text))

def isData : Forest → Bool
  | data _ _ => true
  | _ => false

/-- Data is no two pieces where it could be one, and does not hold the end of literal text. An
element without an end tag is empty. -/
def Valid : Forest → Prop
  | nil => True
  | data glyphs rest => glyphs ≠ [] ∧ (∀ g ∈ glyphs, g.Valid) ∧
    ¬ "]]>".toList <:+: Glyph.texts glyphs ∧ rest.isData = false ∧ rest.Valid
  | literal content rest => Precedes content "]]>" ∧ rest.Valid
  | remark r rest => r.Valid ∧ rest.Valid
  | element tag inner rest => tag.Valid ∧ (tag.endGap = none → inner = nil) ∧ inner.Valid ∧
    rest.Valid

instance decidableValid : DecidablePred Valid
  | nil => .isTrue trivial
  | data _ rest =>
    have := decidableValid rest
    inferInstanceAs (Decidable (_ ∧ _))
  | literal _ rest =>
    have := decidableValid rest
    inferInstanceAs (Decidable (_ ∧ _))
  | remark _ rest =>
    have := decidableValid rest
    inferInstanceAs (Decidable (_ ∧ _))
  | element _ inner rest =>
    have := decidableValid inner
    have := decidableValid rest
    inferInstanceAs (Decidable (_ ∧ _))

end Forest

structure Declaration where
  version : TagAttribute
  encoding : Option TagAttribute := none
  standalone : Option TagAttribute := none
  gap : Text := []
  deriving DecidableEq

namespace Declaration

def attributes (d : Declaration) : List TagAttribute :=
  d.version :: d.encoding.toList ++ d.standalone.toList

def text (d : Declaration) : Text :=
  ['<', '?', 'x', 'm', 'l'] ++ (d.attributes.flatMap TagAttribute.text ++ (d.gap ++ ['?', '>']))

def isPlain : Glyph → Bool
  | .plain c => c.isAlphanum || c = '.' || c = '_' || c = '-'
  | _ => false

@[mk_iff]
structure Valid (d : Declaration) : Prop where
  attributes : ∀ a ∈ d.attributes, a.Valid ∧ ∀ g ∈ a.value, isPlain g = true
  version : d.version.name = ⟨[], "version"⟩
  encoding : ∀ a ∈ d.encoding, a.name = ⟨[], "encoding"⟩
  standalone : ∀ a ∈ d.standalone, a.name = ⟨[], "standalone"⟩
  gap : AreSpaces d.gap

instance : DecidablePred Valid := fun d => decidable_of_iff _ (valid_iff d).symm

end Declaration

/-- Remarks outside the root element, each with the spaces before it, and the spaces behind them. -/
structure Margin where
  remarks : List (Text × Remark) := []
  gap : Text := []
  deriving DecidableEq

namespace Margin

def text (m : Margin) : Text := m.remarks.flatMap (fun (gap, r) => gap ++ r.text) ++ m.gap

@[mk_iff]
structure Valid (m : Margin) : Prop where
  remarks : ∀ p ∈ m.remarks, AreSpaces p.1 ∧ p.2.Valid
  gap : AreSpaces m.gap

instance : DecidablePred Valid := fun m => decidable_of_iff _ (valid_iff m).symm

end Margin

structure Document where
  hasMark : Bool := false
  declaration : Option Declaration := none
  before : Margin := {}
  tag : Tag
  inner : Forest
  behind : Margin := {}
  deriving DecidableEq

namespace Document

def text (d : Document) : Text :=
  (if d.hasMark then ['\uFEFF'] else []) ++
    ((d.declaration.elim [] Declaration.text) ++ (d.before.text ++
      ((Forest.element d.tag d.inner .nil).text ++ d.behind.text)))

@[mk_iff]
structure Valid (d : Document) : Prop where
  declaration : ∀ x ∈ d.declaration, x.Valid
  before : d.before.Valid
  root : (Forest.element d.tag d.inner .nil).Valid
  behind : d.behind.Valid

instance : DecidablePred Valid := fun d => decidable_of_iff _ (valid_iff d).symm

end Document

end SchemaDiagram.Xml
