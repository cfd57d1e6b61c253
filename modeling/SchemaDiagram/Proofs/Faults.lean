import Mathlib.Data.List.Forall2

set_option autoImplicit false

namespace SchemaDiagram
variable {ε α β : Type}

theorem exists_of_bind_eq_ok {x : Except ε α} {f : α → Except ε β} {b : β}
    (h : x >>= f = .ok b) : ∃ a, x = .ok a ∧ f a = .ok b := by
  cases x with
  | error e => cases h
  | ok a => exact ⟨a, rfl, h⟩

theorem forall₂_of_forall₂ {γ : Type} {R : α → β → Prop} {S : β → γ → Prop} {T : α → γ → Prop}
    {as : List α} {bs : List β} {cs : List γ} (h : List.Forall₂ R as bs)
    (h' : List.Forall₂ S bs cs) (hall : ∀ a b c, c ∈ cs → R a b → S b c → T a c) :
    List.Forall₂ T as cs := by
  induction h generalizing cs with
  | nil =>
    cases h'
    exact .nil
  | @cons a b as bs hab _ ih =>
    cases h' with
    | @cons _ c _ cs hbc hrest =>
      exact .cons (hall a b c List.mem_cons_self hab hbc)
        (ih hrest fun a b c hc => hall a b c (List.mem_cons_of_mem _ hc))

theorem mapM_eq_of_forall₂ {f : α → Except ε β} {as : List α} {bs : List β}
    (h : List.Forall₂ (fun a b => f a = .ok b) as bs) : as.mapM f = .ok bs := by
  induction h with
  | nil => rfl
  | cons hab _ ih => simp [List.mapM_cons, hab, ih, bind, Except.bind, pure, Except.pure]

/-- There is a result if there are no faults, and otherwise the first of them. -/
def Reports (faults : List ε) : Except ε α → Prop
  | .ok _ => faults = []
  | .error e => faults.head? = some e

theorem Reports.bind {faults later : List ε} {x : Except ε α} {f : α → Except ε β}
    (h : Reports faults x) (hf : ∀ a, Reports later (f a)) : Reports (faults ++ later) (x >>= f) := by
  cases x with
  | error e =>
    have hhead : faults.head? = some e := h
    exact (List.head?_append_of_ne_nil faults fun hnil => by simp [hnil] at hhead).trans hhead
  | ok a =>
    have hnil : faults = [] := h
    rw [hnil, List.nil_append]
    exact hf a

theorem Reports.bind_pure {faults : List ε} {x : Except ε α} (h : Reports faults x) (f : α → β) :
    Reports faults (x >>= fun a => pure (f a)) := by
  cases x <;> exact h

theorem reports_mapM {R : α → β → Prop} {γ : Type} {faults : β → List ε} {f : α → Except ε γ}
    (h : ∀ a b, R a b → Reports (faults b) (f a)) {as : List α} {bs : List β}
    (hall : List.Forall₂ R as bs) : Reports (bs.flatMap faults) (as.mapM f) := by
  induction hall with
  | nil => rfl
  | @cons a b as bs hab _ ih =>
    rw [List.mapM_cons, List.flatMap_cons]
    exact (h a b hab).bind fun c => ih.bind_pure (c :: ·)

end SchemaDiagram
