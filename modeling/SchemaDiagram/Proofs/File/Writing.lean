import SchemaDiagram.Proofs.Faults
import SchemaDiagram.Proofs.File.Tree

/-!
What writing and making directories do to a volume. A file that is written is read back as it was
written, whatever else is written in other places afterwards, and all other places stay as they are
(`Wrote`).
-/

set_option autoImplicit false

namespace SchemaDiagram.Volume

def entryAt (v : Volume) (place : List Text) : Option Entry := v.root.entryAt place

def placeOf (v : Volume) (path : Text) : Except FileError (List Text) :=
  v.walk (v.startOf path) (Path.steps path)

theorem entryAt_eq_none_iff {v : Volume} {place : List Text} :
    v.entryAt place = none ↔ v.root.get? place = none := Option.map_eq_none_iff

theorem entryAt_eq_file_iff {v : Volume} {place : List Text} {content : ByteArray} :
    v.entryAt place = some (.file content) ↔ v.root.get? place = some (.file content) := by
  unfold entryAt Node.entryAt
  rcases v.root.get? place with _ | _ | _ <;> simp [Node.entry]

theorem entryAt_eq_directory_iff {v : Volume} {place : List Text} :
    v.entryAt place = some .directory ↔ ∃ entries, v.root.get? place = some (.directory entries) := by
  unfold entryAt Node.entryAt
  rcases v.root.get? place with _ | _ | _ <;> simp [Node.entry]

/-- Nothing goes away: directories stay, and files stay files. -/
structure Grows (v w : Volume) : Prop where
  here : w.here = v.here
  directory : ∀ q, v.entryAt q = some .directory → w.entryAt q = some .directory
  file : ∀ q c, v.entryAt q = some (.file c) → ∃ c', w.entryAt q = some (.file c')

theorem Grows.refl (v : Volume) : Grows v v := ⟨rfl, fun _ h => h, fun _ c h => ⟨c, h⟩⟩

theorem Grows.trans {u v w : Volume} (h : Grows u v) (h' : Grows v w) : Grows u w where
  here := h'.here.trans h.here
  directory q hq := h'.directory q (h.directory q hq)
  file q c hq := by
    obtain ⟨c', hc'⟩ := h.file q c hq
    exact h'.file q c' hc'

theorem walk_cons {v : Volume} {start : List Text} {step : Text} (hstep : step ≠ ['.', '.'])
    (rest : List Text) : v.walk start (step :: rest) =
      match v.entryAt (start ++ [step]) with
      | none => .error .notFound
      | some e =>
        if rest.isEmpty || e.isDirectory then v.walk (start ++ [step]) rest
        else .error .notDirectory := by
  rw [walk, if_neg hstep]
  unfold entryAt Node.entryAt
  rcases v.root.get? (start ++ [step]) with _ | _ | _ <;> simp [Node.entry, Node.isDirectory, Entry.isDirectory]

theorem walk_up (v : Volume) (start rest : List Text) :
    v.walk start (['.', '.'] :: rest) = v.walk start.dropLast rest := by
  rw [walk, if_pos rfl]

theorem Grows.walk {v w : Volume} (h : Grows v w) {start steps place : List Text}
    (hwalk : v.walk start steps = .ok place) : w.walk start steps = .ok place := by
  induction steps generalizing start with
  | nil => exact hwalk
  | cons step rest ih =>
    by_cases hstep : step = ['.', '.']
    · subst hstep
      rw [walk_up] at hwalk ⊢
      exact ih hwalk
    · rw [walk_cons hstep] at hwalk ⊢
      cases hentry : v.entryAt (start ++ [step]) with
      | none => simp [hentry] at hwalk
      | some e =>
        rw [hentry] at hwalk
        cases e with
        | directory =>
          rw [h.directory _ hentry]
          simp only [Entry.isDirectory, Bool.or_true, ↓reduceIte] at hwalk ⊢
          exact ih hwalk
        | file c =>
          obtain ⟨c', hc'⟩ := h.file _ c hentry
          rw [hc']
          by_cases hrest : rest.isEmpty
          · simp only [hrest, Bool.true_or, ↓reduceIte] at hwalk ⊢
            exact ih hwalk
          · simp [hrest, Entry.isDirectory] at hwalk

theorem walk_concat {v : Volume} {start steps dir : List Text} {name : Text}
    (hwalk : v.walk start steps = .ok dir) (hdir : v.entryAt dir = some .directory)
    (hname : name ≠ ['.', '.']) (hentry : v.entryAt (dir ++ [name]) ≠ none) :
    v.walk start (steps ++ [name]) = .ok (dir ++ [name]) := by
  induction steps generalizing start with
  | nil =>
    obtain rfl : start = dir := by simpa [walk] using hwalk
    obtain ⟨e, he⟩ := Option.ne_none_iff_exists'.1 hentry
    rw [List.nil_append, walk_cons hname, he]
    rfl
  | cons step rest ih =>
    by_cases hstep : step = ['.', '.']
    · subst hstep
      rw [walk_up] at hwalk
      rw [List.cons_append, walk_up]
      exact ih hwalk
    · rw [walk_cons hstep] at hwalk
      rw [List.cons_append, walk_cons hstep]
      cases he : v.entryAt (start ++ [step]) with
      | none => simp [he] at hwalk
      | some e =>
        rw [he] at hwalk
        by_cases hpass : (rest.isEmpty || e.isDirectory) = true
        · simp only [hpass, ↓reduceIte] at hwalk
          -- A walk that is over has come to the directory, and any other has passed one.
          have hedir : e = .directory := by
            rcases Bool.or_eq_true_iff.1 hpass with hrest | he'
            · rw [List.isEmpty_iff.1 hrest] at hwalk
              obtain rfl : start ++ [step] = dir := by simpa [walk] using hwalk
              exact Option.some.inj (he.symm.trans hdir)
            · exact Entry.eq_directory he'
          simp only [hedir, Entry.isDirectory, Bool.or_true, ↓reduceIte]
          exact ih hwalk
        · simp [hpass] at hwalk

/-- The path of a file: it leads to a name in a directory that is there. -/
structure Reaches (v : Volume) (path : Text) (dir : List Text) (name : Text) : Prop where
  nonempty : path.isEmpty = false
  isPath : isPath path = true
  isFile : Path.asksDirectory path = false
  steps : Path.steps path = (Path.steps path).dropLast ++ [name]
  name_ne : name ≠ ['.', '.']
  walk : v.walk (v.startOf path) (Path.steps path).dropLast = .ok dir
  directory : v.entryAt dir = some .directory

theorem Reaches.mono {v w : Volume} {path : Text} {dir : List Text} {name : Text} (h : Grows v w)
    (hr : Reaches v path dir name) : Reaches w path dir name where
  nonempty := hr.nonempty
  isPath := hr.isPath
  isFile := hr.isFile
  steps := hr.steps
  name_ne := hr.name_ne
  walk := by
    have hstart : w.startOf path = v.startOf path := by rw [startOf, startOf, h.here]
    rw [hstart]
    exact h.walk hr.walk
  directory := h.directory _ hr.directory

theorem Reaches.placeOf {v : Volume} {path : Text} {dir : List Text} {name : Text}
    (h : Reaches v path dir name) (hentry : v.entryAt (dir ++ [name]) ≠ none) :
    v.placeOf path = .ok (dir ++ [name]) := by
  rw [Volume.placeOf, h.steps]
  exact walk_concat h.walk h.directory h.name_ne hentry

theorem Reaches.read {v : Volume} {path : Text} {dir : List Text} {name : Text}
    (h : Reaches v path dir name) {content : ByteArray}
    (hentry : v.entryAt (dir ++ [name]) = some (.file content)) : v.read path = .ok content := by
  have hplace : v.walk (v.startOf path) (Path.steps path) = .ok (dir ++ [name]) :=
    h.placeOf (by simp [hentry])
  simp [Volume.read, h.nonempty, h.isPath, h.isFile, hplace, entryAt_eq_file_iff.1 hentry, bind,
    Except.bind]

theorem directoryAt_eq_ok_iff {v : Volume} {start steps place : List Text} :
    v.directoryAt start steps = .ok place ↔
      v.walk start steps = .ok place ∧ v.entryAt place = some .directory := by
  rw [entryAt_eq_directory_iff]
  unfold directoryAt
  constructor
  · intro h
    obtain ⟨found, hwalk, h⟩ := exists_of_bind_eq_ok h
    split at h
    · cases h
    · cases h
    · rename_i entries hget
      cases h
      exact ⟨hwalk, entries, hget⟩
  · rintro ⟨hwalk, entries, hget⟩
    simp only [hwalk, hget, bind, Except.bind]

theorem exists_of_target {v : Volume} {path : Text} {place : List Text}
    (h : v.target path = .ok place) : ∃ dir name, place = dir ++ [name] ∧
      Reaches v path dir name ∧ v.entryAt place ≠ some .directory := by
  unfold target at h
  split at h
  · cases h
  rename_i hempty
  split at h
  · cases h
  rename_i hpath
  obtain ⟨dir, hdir, h⟩ := exists_of_bind_eq_ok h
  obtain ⟨hwalk, hentry⟩ := directoryAt_eq_ok_iff.1 hdir
  cases hlast : (Path.steps path).getLast? with
  | none => simp [hlast] at h
  | some name =>
    simp only [hlast] at h
    split at h
    · cases h
    rename_i hname
    have hsteps : Path.steps path = (Path.steps path).dropLast ++ [name] := by
      obtain ⟨before, hbefore⟩ := List.getLast?_eq_some_iff.1 hlast
      rw [hbefore, List.dropLast_concat]
    have hreaches : Path.asksDirectory path = false → Reaches v path dir name := fun hfile =>
      ⟨by simpa using hempty, by simpa using hpath, hfile, hsteps, hname, hwalk, hentry⟩
    split at h
    · cases h
    · rename_i content hget
      split at h
      · cases h
      · rename_i hfile
        cases h
        refine ⟨dir, name, rfl, hreaches (by simpa using hfile), ?_⟩
        simp [entryAt_eq_file_iff.2 hget]
    · rename_i hget
      split at h
      · cases h
      · rename_i hfile
        split at h
        · cases h
          refine ⟨dir, name, rfl, hreaches (by simpa using hfile), ?_⟩
          simp [entryAt_eq_none_iff.2 hget]
        · cases h

theorem isLeaf_of_entryAt {v : Volume} {place : List Text} (h : v.entryAt place ≠ some .directory)
    {old : Node} (hget : v.root.get? place = some old) : old.IsLeaf := by
  cases old with
  | file content => exact fun _ => rfl
  | directory entries => exact absurd (entryAt_eq_directory_iff.2 ⟨entries, hget⟩) h

/-- One place has changed, where there was no directory. -/
structure Changed (v : Volume) (place : List Text) (e : Entry) (w : Volume) : Prop where
  here : w.here = v.here
  free : v.entryAt place ≠ some .directory
  entryAt : ∀ q, w.entryAt q = if q = place then some e else v.entryAt q

theorem changed_put {v : Volume} {dir : List Text} {name : Text} {leaf : Node}
    (hleaf : leaf.IsLeaf) (hdir : v.entryAt dir = some .directory)
    (hfree : v.entryAt (dir ++ [name]) ≠ some .directory) :
    Changed v (dir ++ [name]) leaf.entry { v with root := v.root.put (dir ++ [name]) leaf } where
  here := rfl
  free := hfree
  entryAt := Node.entryAt_put hleaf hdir fun _ hget => isLeaf_of_entryAt hfree hget

theorem Changed.grows_of_file {v w : Volume} {place : List Text} {content : ByteArray}
    (h : Changed v place (.file content) w) : Grows v w where
  here := h.here
  directory q hq := by
    have hne : q ≠ place := fun he => h.free (he ▸ hq)
    rw [h.entryAt, if_neg hne, hq]
  file q c hq := by
    rw [h.entryAt]
    by_cases he : q = place
    · exact ⟨content, if_pos he⟩
    · exact ⟨c, (if_neg he).trans hq⟩

theorem exists_of_write {v w : Volume} {path : Text} {content : ByteArray}
    (h : v.write path content = (.ok (), w)) : ∃ dir name, Reaches v path dir name ∧
      Changed v (dir ++ [name]) (.file content) w := by
  unfold write at h
  cases htarget : v.target path with
  | error e => simp [htarget] at h
  | ok place =>
    rw [htarget] at h
    obtain ⟨dir, name, rfl, hreaches, hfree⟩ := exists_of_target htarget
    obtain rfl := (Prod.mk.inj h).2
    have hleaf : (Node.file content).IsLeaf := fun _ => rfl
    exact ⟨dir, name, hreaches, changed_put hleaf hreaches.directory hfree⟩

theorem eq_of_write_error {v w : Volume} {path : Text} {content : ByteArray} {e : FileError}
    (h : v.write path content = (.error e, w)) : w = v := by
  unfold write at h
  cases htarget : v.target path with
  | error e => simpa [htarget, eq_comm] using (Prod.mk.inj h).2
  | ok place => simp [htarget] at h

structure OnlyDirectoriesAdded (v w : Volume) : Prop where
  here : w.here = v.here
  entryAt : ∀ q, w.entryAt q = v.entryAt q ∨ v.entryAt q = none ∧ w.entryAt q = some .directory

theorem OnlyDirectoriesAdded.refl (v : Volume) : OnlyDirectoriesAdded v v := ⟨rfl, fun _ => .inl rfl⟩

theorem OnlyDirectoriesAdded.trans {u v w : Volume} (h : OnlyDirectoriesAdded u v)
    (h' : OnlyDirectoriesAdded v w) : OnlyDirectoriesAdded u w where
  here := h'.here.trans h.here
  entryAt q := by
    rcases h.entryAt q with hq | ⟨hq, hdir⟩ <;> rcases h'.entryAt q with hq' | ⟨hq', hdir'⟩
    · exact .inl (hq'.trans hq)
    · exact .inr ⟨hq ▸ hq', hdir'⟩
    · exact .inr ⟨hq, hq'.trans hdir⟩
    · exact .inr ⟨hq, hdir'⟩

theorem exists_of_vacancy {v : Volume} {path : Text} {place : List Text}
    (h : v.vacancy path = .ok (some place)) : ∃ dir name, place = dir ++ [name] ∧
      v.entryAt dir = some .directory ∧ v.entryAt place = none := by
  unfold vacancy at h
  split at h
  · cases h
  split at h
  · cases h
  dsimp only at h
  obtain ⟨dir, hdir, h⟩ := exists_of_bind_eq_ok h
  obtain ⟨-, hentry⟩ := directoryAt_eq_ok_iff.1 hdir
  split at h
  · cases h
  · rename_i name hlast
    split at h
    · cases h
    · split at h
      · cases h
      · cases h
      · rename_i hget
        split at h
        · cases h
          exact ⟨dir, name, rfl, hentry, entryAt_eq_none_iff.2 hget⟩
        · cases h

theorem onlyDirectoriesAdded_makeDirectory (v : Volume) (path : Text) :
    OnlyDirectoriesAdded v (v.makeDirectory path).2 := by
  unfold makeDirectory
  cases hvacancy : v.vacancy path with
  | error e => exact .refl v
  | ok vacancy =>
    cases vacancy with
    | none => exact .refl v
    | some place =>
      obtain ⟨dir, name, rfl, hdir, hnone⟩ := exists_of_vacancy hvacancy
      have hleaf : (Node.directory []).IsLeaf := fun _ => rfl
      have hfree : v.entryAt (dir ++ [name]) ≠ some .directory := by simp [hnone]
      have hchanged := changed_put hleaf hdir hfree
      refine ⟨rfl, fun q => ?_⟩
      by_cases hq : q = dir ++ [name]
      · exact .inr ⟨hq ▸ hnone, (hchanged.entryAt q).trans (if_pos hq)⟩
      · exact .inl ((hchanged.entryAt q).trans (if_neg hq))

/-- Files that are written in turn, each with its content, all with success. -/
inductive Writes : Volume → List (Text × ByteArray) → Volume → Prop
  | nil (v : Volume) : Writes v [] v
  | cons {v u w : Volume} {path : Text} {content : ByteArray} {rest : List (Text × ByteArray)} :
    v.write path content = (.ok (), u) → Writes u rest w → Writes v ((path, content) :: rest) w

theorem Writes.append {u v w : Volume} {first rest : List (Text × ByteArray)}
    (h : Writes u first v) (h' : Writes v rest w) : Writes u (first ++ rest) w := by
  induction h with
  | nil => exact h'
  | cons hwrite _ ih => exact .cons hwrite (ih h')

theorem Writes.grows {v w : Volume} {outputs : List (Text × ByteArray)} (h : Writes v outputs w) :
    Grows v w := by
  induction h with
  | nil v => exact .refl v
  | cons hwrite _ ih =>
    obtain ⟨_, _, -, hchanged⟩ := exists_of_write hwrite
    exact hchanged.grows_of_file.trans ih

theorem Writes.placeOf_head {u v w : Volume} {path : Text} {content : ByteArray}
    {rest : List (Text × ByteArray)} {dir : List Text} {name : Text}
    (hreaches : Reaches v path dir name) (hchanged : Changed v (dir ++ [name]) (.file content) u)
    (h : Writes u rest w) :
    Reaches w path dir name ∧ w.placeOf path = .ok (dir ++ [name]) := by
  have hentry : u.entryAt (dir ++ [name]) = some (.file content) :=
    (hchanged.entryAt _).trans (if_pos rfl)
  obtain ⟨c, hc⟩ := h.grows.file _ content hentry
  have hlater := hreaches.mono (hchanged.grows_of_file.trans h.grows)
  exact ⟨hlater, hlater.placeOf (by simp [hc])⟩

theorem Writes.entryAt_of_other {v w : Volume} {outputs : List (Text × ByteArray)}
    (h : Writes v outputs w) {q : List Text} (hq : ∀ o ∈ outputs, w.placeOf o.1 ≠ .ok q) :
    w.entryAt q = v.entryAt q := by
  induction h with
  | nil => rfl
  | cons hwrite hrest ih =>
    obtain ⟨dir, name, hreaches, hchanged⟩ := exists_of_write hwrite
    have hplace := (hrest.placeOf_head hreaches hchanged).2
    have hne : q ≠ dir ++ [name] := by
      rintro rfl
      exact hq _ List.mem_cons_self hplace
    rw [ih fun o ho => hq o (List.mem_cons_of_mem _ ho), hchanged.entryAt, if_neg hne]

/-- Paths with different last steps lead to different files, so none is written over. -/
theorem Writes.exists_reaches {v w : Volume} {outputs : List (Text × ByteArray)}
    (h : Writes v outputs w) (hdistinct : outputs.Pairwise fun a b =>
      (Path.steps a.1).getLast? ≠ (Path.steps b.1).getLast?) :
    ∀ o ∈ outputs, ∃ dir name, Reaches w o.1 dir name ∧
      w.entryAt (dir ++ [name]) = some (.file o.2) := by
  induction h with
  | nil => exact fun o ho => absurd ho List.not_mem_nil
  | @cons v u w path content rest hwrite hrest ih =>
    obtain ⟨hfirst, hothers⟩ := List.pairwise_cons.1 hdistinct
    obtain ⟨dir, name, hreaches, hchanged⟩ := exists_of_write hwrite
    have hlater := (hrest.placeOf_head hreaches hchanged).1
    intro o ho
    rcases List.mem_cons.1 ho with rfl | ho
    · refine ⟨dir, name, hlater, ?_⟩
      rw [hrest.entryAt_of_other, hchanged.entryAt, if_pos rfl]
      intro o ho hplace
      obtain ⟨dir', name', hreaches', hentry'⟩ := ih hothers o ho
      rw [hreaches'.placeOf (by simp [hentry'])] at hplace
      have hnames : name' = name := by
        simpa using congrArg List.getLast? (Except.ok.inj hplace)
      refine hfirst o ho ?_
      rw [hlater.steps, hreaches'.steps, hnames]
      simp
    · exact ih hothers o ho

/-- The outputs can be read where they were to be written, and everywhere else there is what there
was, but for directories where there was nothing. -/
structure Wrote (v : Volume) (outputs : List (Text × ByteArray)) (w : Volume) : Prop where
  here : w.here = v.here
  read : ∀ o ∈ outputs, w.read o.1 = .ok o.2
  others : ∀ q, (∀ o ∈ outputs, w.placeOf o.1 ≠ .ok q) →
    w.entryAt q = v.entryAt q ∨ v.entryAt q = none ∧ w.entryAt q = some .directory

theorem OnlyDirectoriesAdded.wrote {v w : Volume} (h : OnlyDirectoriesAdded v w) :
    Wrote v [] w :=
  ⟨h.here, fun _ ho => absurd ho List.not_mem_nil, fun q _ => h.entryAt q⟩

theorem OnlyDirectoriesAdded.wrote_of_writes {u v w : Volume} {outputs : List (Text × ByteArray)}
    (h : OnlyDirectoriesAdded u v) (hwrites : Writes v outputs w)
    (hdistinct : outputs.Pairwise fun a b =>
      (Path.steps a.1).getLast? ≠ (Path.steps b.1).getLast?) : Wrote u outputs w where
  here := hwrites.grows.here.trans h.here
  read o ho := by
    obtain ⟨dir, name, hreaches, hentry⟩ := hwrites.exists_reaches hdistinct o ho
    exact hreaches.read hentry
  others q hq := by
    rw [hwrites.entryAt_of_other hq]
    exact h.entryAt q

end SchemaDiagram.Volume
