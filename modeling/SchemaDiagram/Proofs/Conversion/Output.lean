import SchemaDiagram.Proofs.Conversion.Input
import SchemaDiagram.Proofs.File.Writing
import SchemaDiagram.Proofs.Pieces
import SchemaDiagram.Proofs.Store

/-!
What a conversion leaves behind. Nothing is written before the schema is read and has a table, and
then the documents are written in turn, up to the first that cannot be (`convert_effect`).
-/

set_option autoImplicit false

namespace SchemaDiagram

/-- What counts of an option, of what the project says, and of a default. -/
inductive Counts {α : Type} (option? project? : Option α) (default : α) : α → Prop
  | option {a : α} : option? = some a → Counts option? project? default a
  | project {a : α} : option? = none → project? = some a → Counts option? project? default a
  | default : option? = none → project? = none → Counts option? project? default default

theorem counts_iff {α : Type} {option? project? : Option α} {default a : α} :
    Counts option? project? default a ↔ a = (option? <|> project?).getD default := by
  constructor
  · rintro (h | ⟨h, h'⟩ | ⟨h, h'⟩)
    · rw [h]
      rfl
    · rw [h, h']
      rfl
    · rw [h, h']
      rfl
  · rintro rfl
    cases option? with
    | some a => exact .option rfl
    | none =>
      cases project? with
      | some a => exact .project rfl rfl
      | none => exact .default rfl rfl

namespace Path

theorem exists_getLast?_steps (p : Text) : ∃ l : Text, ∀ s : Text, '/' ∉ s → 2 ≤ s.length →
    (steps (p ++ s)).getLast? = some (l ++ s) := by
  obtain ⟨before, l, hpieces⟩ := Text.exists_splitAt_append (· = '/') p
  have hl : ∀ s : Text, '/' ∉ s → Text.splitAt (· = '/') (p ++ s) = before ++ [l ++ s] :=
    fun s hs => hpieces s fun c hc => decide_eq_false (ne_of_mem_of_not_mem hc hs)
  refine ⟨l, fun s hs hlength => ?_⟩
  have hlong : 2 ≤ (l ++ s).length := by
    rw [List.length_append]
    omega
  have hempty : (l ++ s).isEmpty = false := by
    cases h : l ++ s with
    | nil => simp [h] at hlong
    | cons c t => rfl
  have hpoint : l ++ s ≠ ['.'] := by
    intro h
    simp [h] at hlong
  rw [steps, entries, hl s hs, List.filter_append, List.filter_append]
  simp [hempty, hpoint]

theorem join_append {directory name s : Text} (hs : s.head? ≠ some '/') :
    join directory (name ++ s) = join directory name ++ s := by
  have habsolute : isAbsolute (name ++ s) = isAbsolute name := by
    cases name with
    | nil => simpa [isAbsolute] using hs
    | cons c name => rfl
  unfold join
  rw [habsolute]
  split
  · rfl
  · split <;> simp

end Path

namespace Plan

def stem (plan : Plan) : Text := (Path.fileStem? plan.inputPath).getD "schema"

/-- The plan is what the options say, then the project, then the defaults. -/
structure Follows (plan : Plan) (options : Options) (project : Option Project) : Prop where
  input : options.inputPath = some plan.inputPath ∨
    options.inputPath = none ∧ ∃ p, project = some p ∧ p.schemaFile = some plan.inputPath
  mode : Counts options.mode (project.map (·.mode)) .lenient plan.mode
  directory : Counts options.outputDirectory (project.bind (·.outputDirectory)) "output"
    plan.outputDirectory
  name : Counts options.outputName (project.bind (·.outputName)) plan.stem plan.outputName
  title : Counts options.projectName (project.map (·.name)) plan.stem plan.settings.projectName
  notes : plan.settings =
    { (project.map Project.settings).getD {} with projectName := plan.settings.projectName }

theorem of?_eq_some_iff {options : Options} {project : Option Project} {plan : Plan} :
    of? options project = some plan ↔ plan.Follows options project := by
  constructor
  · intro h
    obtain ⟨path, hpath, hplan⟩ := Option.bind_eq_some_iff.1 h
    cases hplan
    refine ⟨?_, counts_iff.2 rfl, counts_iff.2 rfl, counts_iff.2 rfl, counts_iff.2 ?_, ?_⟩
    · cases hoption : options.inputPath with
      | some given =>
        rw [hoption] at hpath
        exact .inl hpath
      | none =>
        rw [hoption] at hpath
        exact .inr ⟨rfl, Option.bind_eq_some_iff.1 hpath⟩
    · cases options.projectName <;> cases project <;> rfl
    · cases project <;> rfl
  · rintro ⟨hinput, hmode, hdirectory, hname, htitle, hnotes⟩
    rw [counts_iff] at hmode hdirectory hname htitle
    have hpath : (options.inputPath <|> project.bind (·.schemaFile)) = some plan.inputPath := by
      rcases hinput with h | ⟨h, p, rfl, hp⟩
      · rw [h]
        rfl
      · rw [h]
        exact hp
    obtain ⟨path, mode, directory, name, settings⟩ := plan
    simp only [stem] at hpath hmode hdirectory hname htitle hnotes
    have htitles : settings.projectName = options.projectName.getD
        ((project.map Project.settings).getD
          { projectName := (Path.fileStem? path).getD "schema" }).projectName := by
      rw [htitle]
      cases options.projectName <;> cases project <;> rfl
    have hsettings : settings =
        { (project.map Project.settings).getD
            { projectName := (Path.fileStem? path).getD "schema" } with
          projectName := settings.projectName } := by
      conv => lhs; rw [hnotes]
      cases project <;> rfl
    rw [of?, hpath, hmode, hdirectory, hname, hsettings, htitles]
    rfl

def outputs (plan : Plan) (options : Options) (schema : Schema) : List (Text × ByteArray) :=
  [(plan.documentPath, Text.toUtf8 (Dbml.document plan.settings schema)),
   (plan.fullDocumentPath, Text.toUtf8 (Dbml.fullDocument plan.settings schema))] ++
  if options.writeJson then [(plan.jsonPath, Text.toUtf8 schema.jsonText)] else []

/-- No document has the name of another one. -/
theorem pairwise_outputs (plan : Plan) (options : Options) (schema : Schema) :
    (plan.outputs options schema).Pairwise fun a b =>
      (Path.steps a.1).getLast? ≠ (Path.steps b.1).getLast? := by
  obtain ⟨l, hl⟩ := Path.exists_getLast?_steps (Path.join plan.outputDirectory plan.outputName)
  obtain ⟨k, hk⟩ := Path.exists_getLast?_steps (Path.join plan.outputDirectory [])
  have hdocument : (Path.steps plan.documentPath).getLast? = some (l ++ ".dbml".toList) := by
    rw [documentPath, Path.join_append (by decide)]
    exact hl _ (by decide) (by decide)
  have hfull : (Path.steps plan.fullDocumentPath).getLast? = some (l ++ "_full.dbml".toList) := by
    rw [fullDocumentPath, Path.join_append (by decide)]
    exact hl _ (by decide) (by decide)
  have hjson : (Path.steps plan.jsonPath).getLast? = some (k ++ jsonName) := by
    rw [jsonPath, ← List.nil_append jsonName, Path.join_append (by decide)]
    exact hk _ (by decide) (by decide)
  -- The last letter tells the JSON document from the others.
  have hletter : ∀ s : Text, s.getLast? = some 'l' → l ++ s ≠ k ++ jsonName := by
    intro s hs h
    have hlast := congrArg List.getLast? h
    have hn : jsonName.getLast? = some 'n' := rfl
    rw [List.getLast?_append, List.getLast?_append, hs, hn] at hlast
    simp at hlast
  have hnames : l ++ ".dbml".toList ≠ l ++ "_full.dbml".toList := by simp
  unfold outputs
  split
  · simp [hdocument, hfull, hjson, hletter]
  · simp [hdocument, hfull]

end Plan

/-- What is written of the outputs in turn: all of them, or those before the one that the program
fails at. -/
inductive Written (v w : Volume) (outputs : List (Text × ByteArray)) :
    Except Failure Unit → Prop
  | all : Volume.Writes v outputs w → Written v w outputs (.ok ())
  | before {done rest : List (Text × ByteArray)} {o : Text × ByteArray} :
    outputs = done ++ o :: rest → Volume.Writes v done w →
      Written v w outputs (.error (.unwritten o.1))

def WritesOnly (program : ExceptT Failure (StateM Session) Unit)
    (outputs : List (Text × ByteArray)) : Prop :=
  ∀ s : Session, Written s.volume (s.perform program).2.volume outputs (s.perform program).1

theorem WritesOnly.pure : WritesOnly (Pure.pure ()) [] := fun s => .all (.nil s.volume)

theorem WritesOnly.bind {program next : ExceptT Failure (StateM Session) Unit}
    {first later : List (Text × ByteArray)} (h : WritesOnly program first)
    (hnext : WritesOnly next later) :
    WritesOnly (program >>= fun _ => next) (first ++ later) := by
  intro s
  have hfirst := h s
  rw [Session.perform_bind]
  cases hrun : s.perform program with
  | mk result middle =>
    rw [hrun] at hfirst
    cases hfirst with
    | all hwrites =>
      have hlater := hnext middle
      dsimp only
      cases hresult : (middle.perform next).1 with
      | ok u =>
        rw [hresult] at hlater
        cases hlater with
        | all hwrites' => exact .all (hwrites.append hwrites')
      | error e =>
        rw [hresult] at hlater
        cases hlater with
        | @before done rest o houtputs hwrites' =>
          have hall : first ++ later = (first ++ done) ++ o :: rest := by
            rw [houtputs, List.append_assoc]
          exact .before hall (hwrites.append hwrites')
    | @before done rest o houtputs hwrites =>
      have hall : first ++ later = done ++ o :: (rest ++ later) := by
        rw [houtputs, List.append_assoc]
        rfl
      exact .before hall hwrites

theorem writesOnly_say (options : Options) (line : Text) : WritesOnly (say options line) [] := by
  intro s
  unfold say
  split <;> exact .all (.nil s.volume)

theorem writesOnly_writeText (path content : Text) :
    WritesOnly (writeText path content) [(path, Text.toUtf8 content)] := by
  intro s
  have hlift : s.perform (liftM (FileSystem.write path (Text.toUtf8 content) : StateM Session _) :
      ExceptT Failure (StateM Session) _) =
        (.ok (s.volume.write path (Text.toUtf8 content)).1,
          { s with volume := (s.volume.write path (Text.toUtf8 content)).2 }) := rfl
  rw [writeText, Session.perform_bind, hlift]
  dsimp only
  cases hwrite : s.volume.write path (Text.toUtf8 content) with
  | mk result after =>
    cases result with
    | ok u => exact .all (.cons hwrite (.nil after))
    | error e =>
      obtain rfl := Volume.eq_of_write_error hwrite
      have hall : [(path, Text.toUtf8 content)] = [] ++ (path, Text.toUtf8 content) :: [] := rfl
      exact .before hall (.nil _)

section
variable {α β : Type}

def AddsOnlyDirectories (action : StateM Session α) : Prop :=
  ∀ s : Session, s.volume.OnlyDirectoriesAdded (action.run s).2.volume

theorem AddsOnlyDirectories.pure (a : α) : AddsOnlyDirectories (Pure.pure a) := fun s =>
  .refl s.volume

theorem AddsOnlyDirectories.bind {action : StateM Session α} {next : α → StateM Session β}
    (h : AddsOnlyDirectories action) (hnext : ∀ a, AddsOnlyDirectories (next a)) :
    AddsOnlyDirectories (action >>= next) := by
  intro s
  rw [StateT.run_bind]
  exact (h s).trans (hnext _ _)

end

theorem addsOnlyDirectories_makeBelow (above : List Text) (path : Text) :
    AddsOnlyDirectories (FileSystem.makeBelow above path) := by
  have hone : ∀ path : Text, AddsOnlyDirectories (FileSystem.makeDirectory path) := fun path s =>
    Volume.onlyDirectoriesAdded_makeDirectory s.volume path
  induction above generalizing path with
  | nil => exact hone path
  | cons parent above ih =>
    rw [FileSystem.makeBelow]
    refine (hone path).bind fun result => ?_
    split
    · refine (ih parent).bind fun made => ?_
      split
      · exact hone path
      · exact .pure _
    · exact .pure _

theorem addsOnlyDirectories_makeDirectories (path : Text) :
    AddsOnlyDirectories (FileSystem.makeDirectories path) := by
  unfold FileSystem.makeDirectories
  split
  · exact .pure _
  · exact addsOnlyDirectories_makeBelow _ path

theorem perform_makeDirectory (s : Session) (path : Text) :
    s.volume.OnlyDirectoriesAdded (s.perform (makeDirectory path)).2.volume ∧
      ((s.perform (makeDirectory path)).1 = .ok () ∨
        (s.perform (makeDirectory path)).1 = .error (.unwritten path)) := by
  have hadded := addsOnlyDirectories_makeDirectories path s
  rw [makeDirectory, Session.perform_bind, Session.perform_lift]
  dsimp only
  split
  · exact ⟨hadded, .inl rfl⟩
  · exact ⟨hadded, .inr rfl⟩

theorem writesOnly_outputs (options : Options) (plan : Plan) (schema : Schema) :
    WritesOnly (do
      writeText plan.documentPath (Dbml.document plan.settings schema)
      say options ("Wrote DBML: ".toList ++ plan.documentPath)
      writeText plan.fullDocumentPath (Dbml.fullDocument plan.settings schema)
      say options ("Wrote full DBML: ".toList ++ plan.fullDocumentPath)
      if options.writeJson then
        writeText plan.jsonPath schema.jsonText
        say options ("Wrote JSON schema: ".toList ++ plan.jsonPath))
      (plan.outputs options schema) := by
  have hjson : WritesOnly (do
      if options.writeJson then
        writeText plan.jsonPath schema.jsonText
        say options ("Wrote JSON schema: ".toList ++ plan.jsonPath))
      (if options.writeJson then [(plan.jsonPath, Text.toUtf8 schema.jsonText)] else []) := by
    split
    · exact (writesOnly_writeText _ _).bind (writesOnly_say options _)
    · exact .pure
  have hfull := (writesOnly_writeText plan.fullDocumentPath
    (Dbml.fullDocument plan.settings schema)).bind
      ((writesOnly_say options ("Wrote full DBML: ".toList ++ plan.fullDocumentPath)).bind hjson)
  exact (writesOnly_writeText _ _).bind ((writesOnly_say options _).bind hfull)

/-- A conversion gets to the documents: there is a plan by the options and the project, and the schema
that it names is read and has tables. -/
structure Intends (options : Options) (s : Session) (plan : Plan) (schema : Schema) : Prop where
  planned : ∃ project, (s.perform (loadProject options)).1 = .ok project ∧
    plan.Follows options project
  read : (s.perform (readSchema plan.mode plan.inputPath)).1 = .ok schema
  tables_ne_nil : schema.tables ≠ []

def Plan.outcome (plan : Plan) (options : Options) (schema : Schema) : Outcome where
  documentPath := plan.documentPath
  fullDocumentPath := plan.fullDocumentPath
  jsonPath := if options.writeJson then some plan.jsonPath else none
  tableCount := schema.tables.length
  relationshipCount := schema.relationships.length
  skippedCount := schema.skipped.length

/-- What becomes of a volume: nothing, if the conversion does not get to the documents; the documents
before the one that cannot be written; or all documents. -/
inductive Converted (options : Options) (s : Session) : Except Failure Outcome → Volume → Prop
  | nothing {e : Failure} {w : Volume} : (∀ path, e ≠ .unwritten path) → w = s.volume →
    (∀ plan schema, ¬ Intends options s plan schema) → Converted options s (.error e) w
  | noDirectory {plan : Plan} {schema : Schema} {w : Volume} : Intends options s plan schema →
    s.volume.Wrote [] w → Converted options s (.error (.unwritten plan.outputDirectory)) w
  | before {plan : Plan} {schema : Schema} {done rest : List (Text × ByteArray)}
    {o : Text × ByteArray} {w : Volume} : Intends options s plan schema →
    plan.outputs options schema = done ++ o :: rest → s.volume.Wrote done w →
      Converted options s (.error (.unwritten o.1)) w
  | all {plan : Plan} {schema : Schema} {w : Volume} : Intends options s plan schema →
    s.volume.Wrote (plan.outputs options schema) w →
      Converted options s (.ok (plan.outcome options schema)) w

theorem Converted.of_bind {α : Type} {options : Options} {s t : Session}
    {program : ExceptT Failure (StateM Session) α} (h : NeverWrites program)
    (ht : t.volume = s.volume) {next : α → ExceptT Failure (StateM Session) Outcome}
    (hfail : ∀ e, (t.perform program).1 = .error e → ∀ plan schema, ¬ Intends options s plan schema)
    (hnext : ∀ a after, after.volume = s.volume → t.perform program = (.ok a, after) →
      Converted options s (after.perform (next a)).1 (after.perform (next a)).2.volume) :
    Converted options s (t.perform (program >>= next)).1
      (t.perform (program >>= next)).2.volume := by
  obtain ⟨e, after, hsame, he, hfailed, hrun⟩ | ⟨a, after, hsame, ha, hrun⟩ := h.bind_cases t next
  · rw [hrun]
    exact .nothing he (hsame.trans ht) (hfail e hfailed)
  · rw [hrun]
    exact hnext a after (hsame.trans ht) ha

theorem Intends.converted {options : Options} {s t : Session} {plan : Plan} {schema : Schema}
    (h : Intends options s plan schema) (ht : t.volume = s.volume) :
    Converted options s
      (t.perform (writeDocuments options plan schema >>= fun _ =>
        pure (plan.outcome options schema))).1
      (t.perform (writeDocuments options plan schema >>= fun _ =>
        pure (plan.outcome options schema))).2.volume := by
  have hdistinct := plan.pairwise_outputs options schema
  obtain ⟨hadded, hmade⟩ := perform_makeDirectory t plan.outputDirectory
  rw [ht] at hadded
  rw [Session.perform_bind, writeDocuments, Session.perform_bind]
  cases hrun : t.perform (makeDirectory plan.outputDirectory) with
  | mk result middle =>
    rw [hrun] at hadded hmade
    dsimp only at hadded hmade
    rcases hmade with rfl | rfl
    · have hwritten := writesOnly_outputs options plan schema middle
      dsimp only
      generalize middle.perform _ = final at hwritten ⊢
      obtain ⟨result, after⟩ := final
      cases hwritten with
      | all hwrites => exact .all h (hadded.wrote_of_writes hwrites hdistinct)
      | @before done rest o houtputs hwrites =>
        rw [houtputs] at hdistinct
        have hdone := (List.pairwise_append.1 hdistinct).1
        exact .before h houtputs (hadded.wrote_of_writes hwrites hdone)
    · exact .noDirectory h hadded.wrote

theorem Intends.of?_eq {options : Options} {s : Session} {plan : Plan} {schema : Schema}
    {project : Option Project} (h : Intends options s plan schema)
    (hproject : (s.perform (loadProject options)).1 = .ok project) :
    Plan.of? options project = some plan := by
  obtain ⟨project', hproject', hfollows⟩ := h.planned
  cases hproject.symm.trans hproject'
  exact Plan.of?_eq_some_iff.2 hfollows

/-- Of every conversion, whatever the options and the files: it writes nothing, or it gets to the
documents and writes them in turn up to the first that cannot be written. -/
theorem convert_effect (options : Options) (s : Session) :
    Converted options s (s.perform (convert options)).1
      (s.perform (convert options)).2.volume := by
  refine .of_bind (neverWrites_loadProject options) rfl ?_ fun project loaded hloaded hproject => ?_
  · intro e he plan schema hintends
    obtain ⟨project, hproject, -⟩ := hintends.planned
    cases he.symm.trans hproject
  have hproject : (s.perform (loadProject options)).1 = .ok project := congrArg Prod.fst hproject
  cases hplan : Plan.of? options project with
  | none =>
    refine .nothing nofun hloaded fun plan schema hintends => ?_
    cases hplan.symm.trans (hintends.of?_eq hproject)
  | some plan =>
    refine .of_bind (neverWrites_say options _) hloaded ?_ fun _ said hsaid _ => ?_
    · intro e he
      rw [perform_say] at he
      cases he
    -- Nothing was written so far, so the schema is read as at the beginning.
    have hsame : (said.perform (readSchema plan.mode plan.inputPath)).1 =
        (s.perform (readSchema plan.mode plan.inputPath)).1 := by
      rw [perform_readSchema, perform_readSchema, hsaid]
    refine .of_bind (neverWrites_readSchema _ _) hsaid ?_ fun schema after hafter hread => ?_
    · intro e he plan' schema hintends
      cases hplan.symm.trans (hintends.of?_eq hproject)
      cases (hsame.symm.trans he).symm.trans hintends.read
    have hread : (s.perform (readSchema plan.mode plan.inputPath)).1 = .ok schema :=
      hsame.symm.trans (congrArg Prod.fst hread)
    split
    · rename_i hempty
      refine .nothing nofun hafter fun plan' schema' hintends => ?_
      cases hplan.symm.trans (hintends.of?_eq hproject)
      cases hread.symm.trans hintends.read
      exact hintends.tables_ne_nil (List.isEmpty_iff.1 hempty)
    · rename_i htables
      refine .of_bind (neverWrites_forM_say options _) hafter ?_ fun _ told htold _ => ?_
      · intro e he
        rw [perform_forM_say] at he
        cases he
      have hintends : Intends options s plan schema :=
        ⟨⟨project, hproject, Plan.of?_eq_some_iff.1 hplan⟩, hread, by simpa using htables⟩
      have hconverted := hintends.converted htold
      rwa [Plan.outcome, ← Schema.foreignKeyCount_eq] at hconverted

end SchemaDiagram
