import SchemaDiagram.Proofs.Conversion.Input
import SchemaDiagram.Proofs.Faults
import SchemaDiagram.Proofs.Xml.Element

set_option autoImplicit false

namespace SchemaDiagram

namespace Xml

namespace Element

def include? (e : Element) : Option Text := (e.attribute? "Include").bind Project.nonBlank?

def unnamed (element : Text) (e : Element) : List ProjectFault :=
  if e.include?.isNone then [.missingInclude element] else []

end Element

namespace Document

def items (d : Document) (name : Text) : List Element :=
  (d.root.named "ItemGroup").flatMap (Element.named name)

def properties (d : Document) : List Element :=
  (d.root.named "PropertyGroup").flatMap Element.children

def property? (d : Document) (name : Text) : Option Text :=
  (d.properties.find? fun e => e.name = name).bind fun e => Project.nonBlank? e.text

/-- What keeps a document from being a project, in the order in which it is noticed. -/
def faults (d : Document) : List ProjectFault :=
  if d.root.name ≠ "Project".toList then [.wrongRoot d.root.name]
  else
    (match d.property? "ParseMode" with
      | none => []
      | some word => if (Mode.ofText? word).isNone then [.unknownMode word] else []) ++
    ((d.items "TableNote").flatMap (Element.unnamed "TableNote") ++
      (d.items "TableGroup").flatMap fun e =>
        e.unnamed "TableGroup" ++ (e.named "Table").flatMap (Element.unnamed "Table"))

structure IsProject (d : Document) : Prop where
  root : d.root.name = "Project".toList
  mode : ∀ word, d.property? "ParseMode" = some word → (Mode.ofText? word).isSome = true
  notes : ∀ e ∈ d.items "TableNote", e.include?.isSome = true
  groups : ∀ e ∈ d.items "TableGroup", e.include?.isSome = true
  members : ∀ e ∈ d.items "TableGroup", ∀ m ∈ e.named "Table", m.include?.isSome = true

theorem faults_eq_nil_iff {d : Document} : d.faults = [] ↔ d.IsProject := by
  have hunnamed : ∀ (element : Text) (e : Element),
      e.unnamed element = [] ↔ e.include?.isSome = true := by
    intro element e
    unfold Element.unnamed
    cases e.include? <;> simp
  unfold faults
  split
  · rename_i hroot
    exact ⟨nofun, fun h => absurd h.root hroot⟩
  · rename_i hroot
    have hmode : (match d.property? "ParseMode" with
        | none => []
        | some word => if (Mode.ofText? word).isNone then [ProjectFault.unknownMode word] else []) =
          [] ↔ ∀ word, d.property? "ParseMode" = some word → (Mode.ofText? word).isSome = true := by
      cases d.property? "ParseMode" with
      | none => simp
      | some word => simp [Option.isSome_iff_ne_none]
    simp only [List.append_eq_nil_iff, hmode, List.flatMap_eq_nil_iff, hunnamed]
    constructor
    · rintro ⟨hmode, hnotes, hgroups⟩
      exact ⟨not_not.1 hroot, hmode, hnotes, fun e he => (hgroups e he).1,
        fun e he => (hgroups e he).2⟩
    · rintro ⟨-, hmode, hnotes, hgroups, hmembers⟩
      exact ⟨hmode, hnotes, fun e he => ⟨hgroups e he, hmembers e he⟩⟩

end Document

namespace Reads
variable {c : Content} {e : Element}

theorem name?_eq (h : Reads c e) : c.name? = some e.name := by cases h; assumption

theorem include?_eq (h : Reads c e) :
    (c.attribute? "Include").bind Project.nonBlank? = e.include? := by
  cases h with
  | intro _ hattribute _ _ =>
    have hname : "Include".toList ≠ declarationQualifier := by decide
    rw [hattribute _ hname, Element.include?]

theorem text?_eq (h : Reads c e) : c.text?.getD [] = e.text := by cases h; assumption

theorem children (h : Reads c e) :
    List.Forall₂ Reads (c.children.filter Content.isElement) e.children := by cases h; assumption

theorem nonBlank?_text (h : Reads c e) : c.text?.bind Project.nonBlank? =
    Project.nonBlank? e.text := by
  rw [← h.text?_eq]
  cases c.text? <;> rfl

theorem childrenNamed (h : Reads c e) (name : Text) :
    List.Forall₂ Reads (Project.childrenNamed name c) (e.named name) := by
  have hfilter : Project.childrenNamed name c =
      (c.children.filter Content.isElement).filter fun child => child.name? = some name := by
    rw [Project.childrenNamed, List.filter_filter]
    refine List.filter_congr fun child _ => ?_
    cases child <;> simp [Content.isElement, Content.name?]
  rw [hfilter, Element.named]
  refine List.rel_filter (fun child element hread => ?_) h.children
  simp [hread.name?_eq]

theorem items (h : Reads c e) (name : Text) : List.Forall₂ Reads (Project.items c name)
    ((e.named "ItemGroup").flatMap (Element.named name)) :=
  List.rel_flatMap (h.childrenNamed "ItemGroup") fun _ _ hgroup => hgroup.childrenNamed name

theorem property? (h : Reads c e) (name : Text) : Project.property? c name =
    (((e.named "PropertyGroup").flatMap Element.children).find? fun p => p.name = name).bind
      fun p => Project.nonBlank? p.text := by
  have hproperties : List.Forall₂ Reads
      (((Project.childrenNamed "PropertyGroup" c).flatMap Content.children).filter
        Content.isElement) ((e.named "PropertyGroup").flatMap Element.children) := by
    rw [List.filter_flatMap]
    exact List.rel_flatMap (h.childrenNamed "PropertyGroup") fun _ _ hgroup => hgroup.children
  have hfind : ∀ l : List Content, l.find? (fun child => child.name? = some name) =
      (l.filter Content.isElement).find? fun child => child.name? = some name := by
    intro l
    rw [List.find?_filter]
    refine List.find?_congr fun child _ => ?_
    cases child <;> simp [Content.isElement, Content.name?]
  unfold Project.property?
  dsimp only
  rw [Option.bind_eq_bind, hfind]
  generalize ((Project.childrenNamed "PropertyGroup" c).flatMap Content.children).filter
    Content.isElement = cs at hproperties ⊢
  generalize (e.named "PropertyGroup").flatMap Element.children = es at hproperties ⊢
  induction hproperties with
  | nil => rfl
  | @cons child element cs es hread _ ih =>
    rw [List.find?_cons, List.find?_cons, hread.name?_eq]
    by_cases hname : element.name = name
    · simp only [hname, decide_true, Option.bind_some]
      exact hread.nonBlank?_text
    · simpa [hname] using ih

theorem reports_includeOf (h : Reads c e) (element : Text) :
    Reports (e.unnamed element) (Project.includeOf element c) := by
  unfold Project.includeOf Element.unnamed
  rw [h.include?_eq]
  cases e.include? <;> rfl

theorem reports_tableNote (h : Reads c e) :
    Reports (e.unnamed "TableNote") (Project.tableNote c) :=
  (h.reports_includeOf "TableNote").bind_pure fun table =>
    Dbml.TableNote.mk table (Text.trim (c.text?.getD []))

theorem reports_tableGroup (h : Reads c e) : Reports
    (e.unnamed "TableGroup" ++ (e.named "Table").flatMap (Element.unnamed "Table"))
      (Project.tableGroup c) := by
  refine (h.reports_includeOf "TableGroup").bind fun name => ?_
  have htables := reports_mapM (fun _ _ hread => hread.reports_includeOf "Table")
    (h.childrenNamed "Table")
  exact htables.bind_pure (Dbml.TableGroup.mk name)

theorem reports_modeOf {d : Document} (h : Reads c d.root) : Reports
    (match d.property? "ParseMode" with
      | none => []
      | some word => if (Mode.ofText? word).isNone then [.unknownMode word] else [])
    (Project.modeOf c) := by
  unfold Project.modeOf
  have hproperty : Project.property? c "ParseMode" = d.property? "ParseMode" := h.property? _
  rw [hproperty]
  cases d.property? "ParseMode" with
  | none => rfl
  | some word =>
    dsimp only
    cases Mode.ofText? word <;> rfl

theorem reports_ofContent {d : Document} (h : Reads c d.root) (path : Text) :
    Reports d.faults (Project.ofContent path c) := by
  unfold Document.faults Project.ofContent
  rw [h.name?_eq, Option.getD_some]
  dsimp only
  split
  · rfl
  · have hnotes := reports_mapM (fun _ _ hread => hread.reports_tableNote) (h.items "TableNote")
    have hgroups := reports_mapM (fun _ _ hread => hread.reports_tableGroup) (h.items "TableGroup")
    refine h.reports_modeOf.bind fun mode => hnotes.bind fun notes => ?_
    exact hgroups.bind_pure _

end Reads

/-- The element names what is given, however its characters are written. -/
def Element.Names (e : Element) (name : Text) : Prop :=
  ∃ a, e.tag.attributes.find? (fun a => a.name = ⟨[], "Include"⟩) = some a ∧
    (∀ g ∈ a.value, g.KeptInAttribute) ∧ Glyph.chars a.value = name

/-- The tree is the given text and nothing else, however its characters are written. -/
def Forest.Spells : Forest → Text → Prop
  | nil, s => s = []
  | data glyphs rest, s => (∀ g ∈ glyphs, g.KeptInData) ∧
    ∃ t, s = Glyph.chars glyphs ++ t ∧ rest.Spells t
  | literal content rest, s => '\r' ∉ content ∧ ∃ t, s = content ++ t ∧ rest.Spells t
  | remark _ _, _ => False
  | element _ _ _, _ => False

theorem Forest.Spells.leadingText {f : Forest} {s : Text} (h : f.Spells s) : f.leadingText = s := by
  induction f generalizing s with
  | nil => exact Eq.symm h
  | data glyphs rest ih =>
    obtain ⟨hkept, t, rfl, hrest⟩ := h
    rw [Forest.leadingText, Forest.dataOf, dataText_written hkept, ih hrest]
  | literal content rest ih =>
    obtain ⟨hreturn, t, rfl, hrest⟩ := h
    have hkept : ∀ g ∈ content.map Glyph.plain, g.KeptInData := by
      intro g hg
      obtain ⟨c, hc, rfl⟩ := List.mem_map.1 hg
      exact fun heq => hreturn (Glyph.plain.inj heq ▸ hc)
    rw [Forest.leadingText, Forest.dataOf, dataText_written hkept, Glyph.chars_map_plain, ih hrest]
  | remark r rest => exact h.elim
  | element tag inner rest => exact h.elim

/-- A name that can be read back. -/
def IsName (name : Text) : Prop := name ≠ [] ∧ Text.trim name = name

instance : DecidablePred IsName := fun _ => inferInstanceAs (Decidable (_ ∧ _))

structure Element.WritesNote (e : Element) (n : Dbml.TableNote) : Prop where
  table : e.Names n.table
  note : e.inner.Spells n.note

structure Element.WritesGroup (e : Element) (g : Dbml.TableGroup) : Prop where
  name : e.Names g.name
  tables : List.Forall₂ Element.Names (e.named "Table") g.tables

structure Document.Describes (d : Document) (path : Text) (p : Project) : Prop where
  directory : p.directory = (Path.parent? path).getD ['.']
  name : p.name = (d.property? "Name").getD ((Path.fileStem? path).getD "Database")
  databaseType : p.databaseType = (d.property? "DatabaseType").getD Dbml.defaultDatabaseType
  note : p.note = d.property? "Note"
  schemaFile : p.schemaFile = (d.property? "Schema").map (Project.resolve p.directory)
  outputDirectory : p.outputDirectory = (d.property? "OutputDir").map (Project.resolve p.directory)
  outputName : p.outputName = d.property? "OutputName"
  mode : p.mode = ((d.property? "ParseMode").bind Mode.ofText?).getD .lenient
  tableNotes : ∀ notes, List.Forall₂ Element.WritesNote (d.items "TableNote") notes →
    (∀ n ∈ notes, IsName n.table) →
      p.tableNotes = notes.map fun n => { n with note := Text.trim n.note }
  tableGroups : ∀ groups, List.Forall₂ Element.WritesGroup (d.items "TableGroup") groups →
    (∀ g ∈ groups, IsName g.name ∧ ∀ table ∈ g.tables, IsName table) → p.tableGroups = groups

theorem Element.Names.include? {e : Element} {name : Text} (h : e.Names name) (hname : IsName name) :
    e.include? = some name := by
  obtain ⟨a, hfind, hkept, hchars⟩ := h
  have hcontent : a.content = name := by
    rw [TagAttribute.content, attributeText_written hkept, hchars]
  have hnonBlank : Project.nonBlank? name = some name := by
    simp [Project.nonBlank?, hname.2, hname.1]
  rw [Element.include?, Element.attribute?, hfind, Option.map_some, Option.bind_some, hcontent,
    hnonBlank]

namespace Reads
variable {c : Content} {e : Element}

theorem includeOf_eq (h : Reads c e) {name : Text} (hnames : e.Names name) (hname : IsName name)
    (element : Text) : Project.includeOf element c = .ok name := by
  rw [Project.includeOf, h.include?_eq, hnames.include? hname]

theorem tableNote_eq (h : Reads c e) {n : Dbml.TableNote} (hwrites : e.WritesNote n)
    (hname : IsName n.table) :
    Project.tableNote c = .ok { n with note := Text.trim n.note } := by
  have htext : c.text?.getD [] = n.note := h.text?_eq.trans hwrites.note.leadingText
  rw [Project.tableNote, h.includeOf_eq hwrites.table hname, htext]
  rfl

theorem tableGroup_eq (h : Reads c e) {g : Dbml.TableGroup} (hwrites : e.WritesGroup g)
    (hname : IsName g.name) (htables : ∀ table ∈ g.tables, IsName table) :
    Project.tableGroup c = .ok g := by
  have hmembers : (Project.childrenNamed "Table" c).mapM (Project.includeOf "Table") =
      .ok g.tables :=
    mapM_eq_of_forall₂ (forall₂_of_forall₂ (h.childrenNamed "Table") hwrites.tables
      fun _ _ table htable hread hnames => hread.includeOf_eq hnames (htables table htable) "Table")
  rw [Project.tableGroup, h.includeOf_eq hwrites.name hname]
  simp only [bind, Except.bind, hmembers]
  rfl

theorem modeOf_eq {d : Document} (h : Reads c d.root) {mode : Mode}
    (hmode : Project.modeOf c = .ok mode) :
    mode = ((d.property? "ParseMode").bind Mode.ofText?).getD .lenient := by
  have hproperty : Project.property? c "ParseMode" = d.property? "ParseMode" := h.property? _
  unfold Project.modeOf at hmode
  rw [hproperty] at hmode
  cases hword : d.property? "ParseMode" with
  | none =>
    rw [hword] at hmode
    cases hmode
    rfl
  | some word =>
    rw [hword] at hmode
    dsimp only at hmode
    cases hparsed : Mode.ofText? word with
    | none =>
      rw [hparsed] at hmode
      cases hmode
    | some m =>
      rw [hparsed] at hmode
      cases hmode
      rw [Option.bind_some, hparsed]
      rfl

theorem tableNotes_eq {d : Document} (h : Reads c d.root) {notes : List Dbml.TableNote}
    (hwritten : List.Forall₂ Element.WritesNote (d.items "TableNote") notes)
    (hnames : ∀ n ∈ notes, IsName n.table) : (Project.items c "TableNote").mapM Project.tableNote =
      .ok (notes.map fun n => { n with note := Text.trim n.note }) := by
  refine mapM_eq_of_forall₂ (List.forall₂_map_right_iff.2 ?_)
  exact forall₂_of_forall₂ (h.items "TableNote") hwritten fun _ _ n hn hread hwrites =>
    hread.tableNote_eq hwrites (hnames n hn)

theorem tableGroups_eq {d : Document} (h : Reads c d.root) {groups : List Dbml.TableGroup}
    (hwritten : List.Forall₂ Element.WritesGroup (d.items "TableGroup") groups)
    (hnames : ∀ g ∈ groups, IsName g.name ∧ ∀ table ∈ g.tables, IsName table) :
    (Project.items c "TableGroup").mapM Project.tableGroup = .ok groups :=
  mapM_eq_of_forall₂ (forall₂_of_forall₂ (h.items "TableGroup") hwritten
    fun _ _ g hg hread hwrites => hread.tableGroup_eq hwrites (hnames g hg).1 (hnames g hg).2)

theorem describes {d : Document} (h : Reads c d.root) {path : Text} {p : Project}
    (hp : Project.ofContent path c = .ok p) : d.Describes path p := by
  have hproperty : ∀ name, Project.property? c name = d.property? name := h.property?
  unfold Project.ofContent at hp
  dsimp only at hp
  split at hp
  · cases hp
  obtain ⟨mode, hmode, hp⟩ := exists_of_bind_eq_ok hp
  obtain ⟨notes, hnotes, hp⟩ := exists_of_bind_eq_ok hp
  obtain ⟨groups, hgroups, hp⟩ := exists_of_bind_eq_ok hp
  cases hp
  exact {
    directory := rfl
    name := congrArg (Option.getD · _) (hproperty _)
    databaseType := congrArg (Option.getD · _) (hproperty _)
    note := hproperty _
    schemaFile := congrArg (Option.map _) (hproperty _)
    outputDirectory := congrArg (Option.map _) (hproperty _)
    outputName := hproperty _
    mode := h.modeOf_eq hmode
    tableNotes := fun _ hwritten hnames =>
      Except.ok.inj (hnotes.symm.trans (h.tableNotes_eq hwritten hnames))
    tableGroups := fun _ hwritten hnames =>
      Except.ok.inj (hgroups.symm.trans (h.tableGroups_eq hwritten hnames)) }

end Reads

end Xml

open Xml

/-- A well-formed document in a file is looked at as what was written in it. -/
theorem perform_readProject_text {d : Document} (hvalid : d.Valid) (hresolves : d.Resolves)
    {s : Session} {path : Text} (hread : s.volume.read path = .ok (Text.toUtf8 d.text)) :
    s.perform (readProject path) =
      (match Project.ofContent path d.content with
        | .ok project => .ok project
        | .error fault => .error (.projectInvalid fault), s) := by
  have hutf8 : Text.ofUtf8? (Text.toUtf8 d.text) = some d.text := Text.ofUtf8?_eq_some_iff.2 rfl
  cases hproject : Project.ofContent path d.content <;>
    simp only [perform_readProject, hread, projectOf, hutf8, parse?_text hvalid hresolves, hproject]

/-- Of every well-formed document in a file: it is read as a project exactly if it is one, and
otherwise the first fault is reported; the project is what was written, whatever stands between. -/
theorem readProject_document (d : Document) (hvalid : d.Valid) (hresolves : d.Resolves)
    (s : Session) (path : Text) (hread : s.volume.read path = .ok (Text.toUtf8 d.text)) :
    ((∃ p, s.perform (readProject path) = (.ok p, s)) ↔ d.IsProject) ∧
    (¬ d.IsProject → ∃ fault, d.faults.head? = some fault ∧
      s.perform (readProject path) = (.error (.projectInvalid fault), s)) ∧
    ∀ p, s.perform (readProject path) = (.ok p, s) → d.Describes path p := by
  have hshows := reads_content hresolves
  have hreports := hshows.reports_ofContent path
  rw [perform_readProject_text hvalid hresolves hread, ← Document.faults_eq_nil_iff]
  cases hproject : Project.ofContent path d.content with
  | ok project =>
    rw [hproject] at hreports
    have hnone : d.faults = [] := hreports
    refine ⟨⟨fun _ => hnone, fun _ => ⟨project, rfl⟩⟩, fun hsome => absurd hnone hsome, ?_⟩
    intro p hp
    cases hp
    exact hshows.describes hproject
  | error fault =>
    rw [hproject] at hreports
    have hfirst : d.faults.head? = some fault := hreports
    have hsome : d.faults ≠ [] := by
      intro hnone
      simp [hnone] at hfirst
    refine ⟨⟨?_, fun hnone => absurd hnone hsome⟩, fun _ => ⟨fault, hfirst, rfl⟩, ?_⟩
    · rintro ⟨p, hp⟩
      cases hp
    · intro p hp
      cases hp

namespace Xml

def Glyph.spelled (s : Text) : List Glyph := s.map plain

def Tag.including (name : Text) (value : List Glyph) (endGap : Option Text) : Tag where
  name := ⟨[], name⟩
  attributes := [{ name := ⟨[], "Include"⟩, value }]
  endGap := endGap

def shopDocument : Document where
  declaration := some { version := { name := ⟨[], "version"⟩, value := Glyph.spelled "1.0" } }
  before := { remarks := [(['\n'], .comment " shop ")] }
  tag := { name := ⟨[], "Project"⟩ }
  inner :=
    .data [.plain '\n'] <|
    .element { name := ⟨[], "ItemGroup"⟩ }
      (.element (.including "TableNote" [.plain 'a', .named "amp" '&', .plain 'b'] (some []))
        (.data [.plain ' ', .plain 'x', .named "lt" '<', .plain 'y'] .nil) .nil) <|
    .element { name := ⟨[], "Other"⟩, endGap := none } .nil <|
    .element { name := ⟨[], "ItemGroup"⟩ }
      (.element (.including "TableGroup" [.plain 'G'] (some []))
        (.element (.including "Table" [.plain 'a', .numbered false "38", .plain 'b'] none)
          .nil .nil) .nil) .nil

def Document.session (d : Document) : Session :=
  { volume := ⟨.directory [("p.dbmlproj", .file (Text.toUtf8 d.text))], []⟩ }

end Xml

theorem readProject_shopDocument :
    shopDocument.Valid ∧ shopDocument.Resolves ∧ shopDocument.session.volume.read "p.dbmlproj" =
      .ok (Text.toUtf8 shopDocument.text) ∧
    ∃ p, shopDocument.session.perform (readProject "p.dbmlproj") = (.ok p, shopDocument.session) ∧
      p.tableNotes = [⟨"a&b", "x<y"⟩] ∧ p.tableGroups = [⟨"G", ["a&b"]⟩] := by
  have hvalid : shopDocument.Valid := by decide +kernel
  have hresolves : shopDocument.Resolves := by decide +kernel
  have hread : shopDocument.session.volume.read "p.dbmlproj" =
      .ok (Text.toUtf8 shopDocument.text) := rfl
  have hproject : shopDocument.IsProject := Document.faults_eq_nil_iff.1 (by decide +kernel)
  obtain ⟨hiff, -, hdescribes⟩ :=
    readProject_document shopDocument hvalid hresolves shopDocument.session "p.dbmlproj" hread
  obtain ⟨p, hp⟩ := hiff.2 hproject
  refine ⟨hvalid, hresolves, hread, p, hp, ?_, ?_⟩
  · have hnote : List.Forall₂ Element.WritesNote (shopDocument.items "TableNote")
        [⟨"a&b", " x<y"⟩] :=
      .cons ⟨⟨_, rfl, by decide, by decide⟩, ⟨by decide, [], by decide, rfl⟩⟩ .nil
    exact (hdescribes p hp).tableNotes _ hnote (by decide)
  · have hgroup : List.Forall₂ Element.WritesGroup (shopDocument.items "TableGroup")
        [⟨"G", ["a&b"]⟩] :=
      .cons ⟨⟨_, rfl, by decide, by decide⟩, .cons ⟨_, rfl, by decide, by decide⟩ .nil⟩ .nil
    exact (hdescribes p hp).tableGroups _ hgroup (by decide)

namespace Xml

def paddedNote : Document where
  tag := { name := ⟨[], "Project"⟩ }
  inner := .element { name := ⟨[], "ItemGroup"⟩ }
    (.element (.including "TableNote" [.plain 't'] (some [])) (.data (Glyph.spelled " x ") .nil)
      .nil) .nil

def reservedElement : Document where
  tag := { name := ⟨[], "Project"⟩ }
  inner := .element { name := ⟨"xml", "a"⟩, endGap := none } .nil .nil

end Xml

/-- The spaces around a note are not kept; and with an element in the reserved namespace, which any
document may use without a declaration, a project is not read at all. -/
theorem readProject_paddedNote_reservedElement :
    (paddedNote.Valid ∧ paddedNote.Resolves ∧ paddedNote.IsProject ∧
      List.Forall₂ Element.WritesNote (paddedNote.items "TableNote") [⟨"t", " x "⟩] ∧
      IsName "t" ∧
      ∃ p, paddedNote.session.perform (readProject "p.dbmlproj") = (.ok p, paddedNote.session) ∧
        p.tableNotes = [⟨"t", "x"⟩] ∧ p.tableNotes ≠ [⟨"t", " x "⟩]) ∧
    reservedElement.Valid ∧
      (Forest.element reservedElement.tag reservedElement.inner .nil).Resolves
        [(xmlQualifier, xmlNamespace)] ∧
      reservedElement.IsProject ∧
      reservedElement.session.perform (readProject "p.dbmlproj") =
        (.error (.projectMalformed "p.dbmlproj"), reservedElement.session) := by
  constructor
  · have hvalid : paddedNote.Valid := by decide +kernel
    have hresolves : paddedNote.Resolves := by decide +kernel
    have hproject : paddedNote.IsProject := Document.faults_eq_nil_iff.1 (by decide +kernel)
    have hnote : List.Forall₂ Element.WritesNote (paddedNote.items "TableNote") [⟨"t", " x "⟩] :=
      .cons ⟨⟨_, rfl, by decide, by decide⟩, ⟨by decide, [], by decide, rfl⟩⟩ .nil
    have hname : IsName "t" := by decide
    refine ⟨hvalid, hresolves, hproject, hnote, hname, ?_⟩
    have hshows := reads_content hresolves
    have hreports := hshows.reports_ofContent "p.dbmlproj"
    rw [perform_readProject_text hvalid hresolves rfl]
    cases hread : Project.ofContent "p.dbmlproj" paddedNote.content with
    | error fault =>
      rw [hread, Document.faults_eq_nil_iff.2 hproject] at hreports
      cases hreports
    | ok p =>
      have hnotes : p.tableNotes = [⟨"t", "x"⟩] :=
        (hshows.describes hread).tableNotes _ hnote (by decide)
      exact ⟨p, rfl, hnotes, by rw [hnotes]; decide⟩
  · have hvalid : reservedElement.Valid := by decide +kernel
    refine ⟨hvalid, by decide +kernel, Document.faults_eq_nil_iff.1 (by decide +kernel), ?_⟩
    have hread : reservedElement.session.volume.read "p.dbmlproj" =
      .ok (Text.toUtf8 reservedElement.text) := rfl
    have hutf8 : Text.ofUtf8? (Text.toUtf8 reservedElement.text) = some reservedElement.text :=
      Text.ofUtf8?_eq_some_iff.2 rfl
    have hparse : parse? reservedElement.text = none := by
      obtain ⟨passed, rfl | rfl, hpieces⟩ := exists_parse?_eq hvalid
      · exact hpieces.trans (by decide +kernel)
      · exact hpieces.trans (by decide +kernel)
    simp only [perform_readProject, hread, projectOf, hutf8, hparse]

end SchemaDiagram
