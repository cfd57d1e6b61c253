import SchemaDiagram.Schema.Keys

/-!
Lists in which names find their elements: a change of the first element of a name, and a table put
at its name's place, or behind the others where its name is new. Neither makes two tables of one name.
-/

set_option autoImplicit false

namespace SchemaDiagram

namespace Schema
variable {α β : Type}

theorem map_modifyFirst {p : α → Bool} {f : α → α} {g : α → β} (hg : ∀ a, g (f a) = g a)
    (l : List α) : (modifyFirst p f l).map g = l.map g := by
  induction l with
  | nil => rfl
  | cons a l ih => by_cases h : p a <;> simp [modifyFirst, h, hg, ih]

theorem mem_modifyFirst {p : α → Bool} {f : α → α} {a : α} {l : List α}
    (h : a ∈ modifyFirst p f l) : a ∈ l ∨ ∃ b ∈ l, p b = true ∧ a = f b := by
  induction l with
  | nil => simp [modifyFirst] at h
  | cons b l ih =>
    simp only [modifyFirst] at h
    split at h
    · rename_i hb
      rcases List.mem_cons.1 h with rfl | h
      · exact Or.inr ⟨b, List.mem_cons_self, hb, rfl⟩
      · exact Or.inl (List.mem_cons_of_mem b h)
    · rcases List.mem_cons.1 h with rfl | h
      · exact Or.inl List.mem_cons_self
      · rcases ih h with h | ⟨c, hc, hpc, rfl⟩
        · exact Or.inl (List.mem_cons_of_mem b h)
        · exact Or.inr ⟨c, List.mem_cons_of_mem b hc, hpc, rfl⟩

theorem modifyFirst_of_nodup {name : α → Text} {l : List α} (h : (l.map name).Nodup) (n : Text)
    (f : α → α) :
    modifyFirst (fun a => name a = n) f l = l.map fun a => if name a = n then f a else a := by
  induction l with
  | nil => rfl
  | cons a l ih =>
    obtain ⟨ha, hl⟩ := List.nodup_cons.1 h
    by_cases hn : name a = n
    · have hothers : l.map (fun b => if name b = n then f b else b) = l := by
        refine (List.map_congr_left ?_).trans (List.map_id l)
        intro b hb
        have hne : name b ≠ n := fun hname => ha (List.mem_map.2 ⟨b, hb, hname.trans hn.symm⟩)
        simp [hne]
      simp [modifyFirst, hn, hothers]
    · simp [modifyFirst, hn, ih hl]

theorem map_name_addIndex (p : Table → Bool) (columns : Text) (l : List Table) :
    (modifyFirst p (fun t => { t with indexes := t.indexes ++ [columns] }) l).map (·.name) =
      l.map (·.name) := by
  refine map_modifyFirst ?_ l
  intro t
  rfl

theorem mem_put {t u : Table} {l : List Table} (h : u ∈ put t l) : u = t ∨ u ∈ l := by
  induction l with
  | nil => simpa [put] using h
  | cons v l ih =>
    simp only [put] at h
    split at h
    · rcases List.mem_cons.1 h with rfl | h
      · exact Or.inl rfl
      · exact Or.inr (List.mem_cons_of_mem v h)
    · rcases List.mem_cons.1 h with rfl | h
      · exact Or.inr List.mem_cons_self
      · rcases ih h with h | h
        · exact Or.inl h
        · exact Or.inr (List.mem_cons_of_mem v h)

theorem put_of_new {t : Table} {l : List Table} (h : t.name ∉ l.map (·.name)) :
    put t l = l ++ [t] := by
  induction l with
  | nil => rfl
  | cons u l ih =>
    obtain ⟨hu, hl⟩ := not_or.1 (mt List.mem_cons.2 h)
    rw [put, if_neg (Ne.symm hu), ih hl]
    rfl

theorem find?_put (t : Table) (n : Text) (l : List Table) :
    (put t l).find? (·.name = n) = if t.name = n then some t else l.find? (·.name = n) := by
  induction l with
  | nil =>
    by_cases h : t.name = n <;> simp [put, h]
  | cons u l ih =>
    rw [put]
    by_cases hname : u.name = t.name
    · rw [if_pos hname]
      by_cases h : t.name = n
      · simp [h]
      · have hu : ¬ u.name = n := fun hu => h (hname.symm.trans hu)
        simp [h, hu]
    · rw [if_neg hname]
      by_cases hu : u.name = n
      · have h : ¬ t.name = n := fun h => hname (hu.trans h.symm)
        simp [hu, h]
      · simp only [List.find?_cons, decide_eq_false hu, ih]

theorem map_name_put (t : Table) (l : List Table) :
    (put t l).map (·.name) =
      if t.name ∈ l.map (·.name) then l.map (·.name) else l.map (·.name) ++ [t.name] := by
  induction l with
  | nil => rfl
  | cons u l ih =>
    rw [put]
    by_cases hname : u.name = t.name
    · rw [if_pos hname, List.map_cons, List.map_cons, hname, if_pos List.mem_cons_self]
    · have hmem : t.name ∈ (u :: l).map (·.name) ↔ t.name ∈ l.map (·.name) := by
        simp [Ne.symm hname]
      rw [if_neg hname, List.map_cons, ih]
      by_cases hlater : t.name ∈ l.map (·.name)
      · rw [if_pos hlater, if_pos (hmem.2 hlater), List.map_cons]
      · rw [if_neg hlater, if_neg (mt hmem.1 hlater), List.map_cons, List.cons_append]

theorem nodup_put {t : Table} {l : List Table} (h : (l.map (·.name)).Nodup) :
    ((put t l).map (·.name)).Nodup := by
  rw [map_name_put]
  split
  · exact h
  · rename_i hnew
    refine List.nodup_append.2 ⟨h, List.pairwise_singleton _ _, ?_⟩
    intro n hn u hu hsame
    rw [hsame, List.mem_singleton.1 hu] at hn
    exact hnew hn

/-- A change of tables that keeps their names may come before or after a table is put in. -/
theorem map_put {f : Table → Table} (hf : ∀ t, (f t).name = t.name) (t : Table) (l : List Table) :
    (put t l).map f = put (f t) (l.map f) := by
  induction l with
  | nil => rfl
  | cons u l ih =>
    rw [List.map_cons, put, put, hf, hf]
    by_cases hname : u.name = t.name
    · rw [if_pos hname, if_pos hname, List.map_cons]
    · rw [if_neg hname, if_neg hname, List.map_cons, ih]

theorem foreignKeyCount_eq (m : Schema) : m.foreignKeyCount = m.relationships.length := by
  have hfold : ∀ (l : List Table) (n : Nat), l.foldl (fun n t => n + t.foreignKeys.length) n =
      n + (l.flatMap Table.relationships).length := by
    intro l
    induction l with
    | nil => exact fun n => rfl
    | cons t l ih =>
      intro n
      rw [List.foldl_cons, ih, List.flatMap_cons, List.length_append, Table.relationships,
        List.length_map, Nat.add_assoc]
  rw [foreignKeyCount, hfold, Nat.zero_add, relationships]

end Schema

end SchemaDiagram
