import SchemaDiagram.File.System

set_option autoImplicit false

namespace SchemaDiagram.Session
variable {ε α β : Type}

def perform (s : Session) (program : ExceptT ε (StateM Session) α) : Except ε α × Session :=
  program.run.run s

@[simp] theorem perform_lift (s : Session) (action : StateM Session α) :
    s.perform (liftM action : ExceptT ε (StateM Session) α) =
      (.ok (action.run s).1, (action.run s).2) := rfl

theorem perform_bind (s : Session) (program : ExceptT ε (StateM Session) α)
    (next : α → ExceptT ε (StateM Session) β) :
    s.perform (program >>= next) =
      match s.perform program with
      | (.ok a, after) => after.perform (next a)
      | (.error e, after) => (.error e, after) := by
  unfold perform
  rw [ExceptT.run_bind, StateT.run_bind]
  generalize StateT.run program.run s = first
  obtain ⟨_ | _, _⟩ := first <;> rfl

end SchemaDiagram.Session
