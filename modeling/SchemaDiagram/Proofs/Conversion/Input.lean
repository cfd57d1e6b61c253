import SchemaDiagram.Proofs.Decoding

set_option autoImplicit false

namespace SchemaDiagram

section
variable {α β : Type}

/-- The program leaves the volume as it is and does not fail by writing. -/
def NeverWrites (program : ExceptT Failure (StateM Session) α) : Prop :=
  ∀ s : Session, (s.perform program).2.volume = s.volume ∧
    ∀ path, (s.perform program).1 ≠ .error (.unwritten path)

theorem NeverWrites.pure (a : α) : NeverWrites (Pure.pure a) := fun _ => ⟨rfl, nofun⟩

theorem NeverWrites.bind_cases {program : ExceptT Failure (StateM Session) α}
    (h : NeverWrites program) (s : Session) (next : α → ExceptT Failure (StateM Session) β) :
    (∃ e after, after.volume = s.volume ∧ (∀ path, e ≠ .unwritten path) ∧
      (s.perform program).1 = .error e ∧ s.perform (program >>= next) = (.error e, after)) ∨
    ∃ a after, after.volume = s.volume ∧ s.perform program = (.ok a, after) ∧
      s.perform (program >>= next) = after.perform (next a) := by
  obtain ⟨hsame, hfailure⟩ := h s
  rw [Session.perform_bind]
  cases hrun : s.perform program with
  | mk result after =>
    rw [hrun] at hsame hfailure
    cases result with
    | error e =>
      exact .inl ⟨e, after, hsame, fun path he => hfailure path (congrArg Except.error he), rfl, rfl⟩
    | ok a => exact .inr ⟨a, after, hsame, rfl, rfl⟩

theorem NeverWrites.bind {program : ExceptT Failure (StateM Session) α}
    {next : α → ExceptT Failure (StateM Session) β} (h : NeverWrites program)
    (hnext : ∀ a, NeverWrites (next a)) : NeverWrites (program >>= next) := by
  intro s
  obtain ⟨e, after, hsame, he, -, hrun⟩ | ⟨a, after, hsame, -, hrun⟩ := h.bind_cases s next
  · rw [hrun]
    exact ⟨hsame, fun path hpath => he path (Except.error.inj hpath)⟩
  · rw [hrun]
    obtain ⟨hrest, hlater⟩ := hnext a after
    exact ⟨hrest.trans hsame, hlater⟩

theorem neverWrites_say (options : Options) (line : Text) : NeverWrites (say options line) := by
  intro s
  unfold say
  split <;> exact ⟨rfl, nofun⟩

theorem perform_say (s : Session) (options : Options) (line : Text) :
    (s.perform (say options line)).1 = .ok () := by
  unfold say
  split <;> rfl

theorem neverWrites_forM_say (options : Options) (lines : List Text) :
    NeverWrites (lines.forM (say options)) := by
  induction lines with
  | nil => exact .pure ()
  | cons line lines ih => exact (neverWrites_say options line).bind fun _ => ih

theorem perform_forM_say (s : Session) (options : Options) (lines : List Text) :
    (s.perform (lines.forM (say options))).1 = .ok () := by
  induction lines generalizing s with
  | nil => rfl
  | cons line lines ih =>
    have hfirst := perform_say s options line
    have hcons : (line :: lines).forM (say options) =
        (say options line >>= fun _ => lines.forM (say options) :
          ExceptT Failure (StateM Session) Unit) := rfl
    rw [hcons, Session.perform_bind]
    cases hrun : s.perform (say options line) with
    | mk result after =>
      rw [hrun] at hfirst
      cases hfirst
      exact ih after

end

def schemaOf (mode : Mode) (path : Text) : Except ReadError Text → Except Failure Schema
  | .error .undecodable => .error (.schemaUndecodable path)
  | .error (.file _) => .error (.schemaUnread path)
  | .ok sql =>
    match Schema.parse mode sql with
    | .ok schema => .ok schema
    | .error piece => .error (.refused piece)

theorem perform_readSchema (s : Session) (mode : Mode) (path : Text) :
    s.perform (readSchema mode path) =
      (schemaOf mode path (decoded Text.ofLegacyBytes? (s.volume.read path)), s) := by
  have hlift : s.perform (liftM ((readText path).run : StateM Session _) :
      ExceptT Failure (StateM Session) _) =
        (.ok (s.perform (readText path)).1, (s.perform (readText path)).2) := rfl
  rw [readSchema, Session.perform_bind, hlift, readText, perform_readTextBy]
  dsimp only
  unfold schemaOf
  rcases decoded Text.ofLegacyBytes? (s.volume.read path) with (_ | _) | sql
  · rfl
  · rfl
  · dsimp only
    cases Schema.parse mode sql <;> rfl

theorem neverWrites_readSchema (mode : Mode) (path : Text) :
    NeverWrites (readSchema mode path) := by
  intro s
  rw [perform_readSchema]
  refine ⟨rfl, fun p h => ?_⟩
  dsimp only at h
  unfold schemaOf at h
  split at h
  · cases h
  · cases h
  · split at h <;> cases h

def projectOf (path : Text) : Except FileError ByteArray → Except Failure Project
  | .error _ => .error (.projectUnread path)
  | .ok bytes =>
    match Text.ofUtf8? bytes with
    | none => .error (.projectUnread path)
    | some s =>
      match Xml.parse? s with
      | none => .error (.projectMalformed path)
      | some root =>
        match Project.ofContent path root with
        | .ok project => .ok project
        | .error fault => .error (.projectInvalid fault)

theorem perform_readProject (s : Session) (path : Text) :
    s.perform (readProject path) = (projectOf path (s.volume.read path), s) := by
  have hlift : s.perform (liftM (FileSystem.read path : StateM Session _) :
      ExceptT Failure (StateM Session) _) = (.ok (s.volume.read path), s) := rfl
  rw [readProject, Session.perform_bind, hlift]
  dsimp only
  unfold projectOf
  cases s.volume.read path with
  | error e => rfl
  | ok bytes =>
    dsimp only
    cases Text.ofUtf8? bytes with
    | none => rfl
    | some t =>
      dsimp only
      cases Xml.parse? t with
      | none => rfl
      | some root =>
        dsimp only
        cases Project.ofContent path root <;> rfl

theorem neverWrites_loadProject (options : Options) : NeverWrites (loadProject options) := by
  unfold loadProject
  split
  · exact .pure none
  · rename_i path _
    refine (neverWrites_say options _).bind fun _ => ?_
    rw [map_eq_pure_bind]
    refine NeverWrites.bind ?_ fun _ => .pure _
    intro s
    rw [perform_readProject]
    refine ⟨rfl, fun p h => ?_⟩
    dsimp only at h
    unfold projectOf at h
    split at h
    · cases h
    · split at h
      · cases h
      · split at h
        · cases h
        · split at h <;> cases h

end SchemaDiagram
