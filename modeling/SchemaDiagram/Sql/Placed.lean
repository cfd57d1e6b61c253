/-!
Parts that keep the place of what declares them, so that parts read at different times can be put
in order again. Sorting is stable: each place keeps its parts in their order (`filter_sort`), and
two lists in order that agree at each place are equal (`eq_of_filter_eq`).
-/

set_option autoImplicit false

namespace SchemaDiagram.Sql

structure Placed (α : Type) where
  place : Nat
  value : α
  deriving DecidableEq, Repr

namespace Placed
variable {α β γ : Type}

def numberFrom : Nat → List α → List (Placed α)
  | _, [] => []
  | n, a :: l => ⟨n, a⟩ :: numberFrom (n + 1) l

def spread (f : α → List β) (p : Placed α) : List (Placed β) := (f p.value).map (Placed.mk p.place)

def insert (p : Placed α) : List (Placed α) → List (Placed α)
  | [] => [p]
  | q :: l => if p.place ≤ q.place then p :: q :: l else q :: insert p l

/-- By place; parts of one place stay in their order. -/
def sort (l : List (Placed α)) : List (Placed α) := l.foldr insert []

def Sorted (l : List (Placed α)) : Prop := l.Pairwise fun p q => p.place ≤ q.place

@[simp] theorem mem_insert {p q : Placed α} {l : List (Placed α)} :
    q ∈ insert p l ↔ q = p ∨ q ∈ l := by
  induction l with
  | nil => simp [insert]
  | cons r l ih =>
    simp only [insert]
    split
    · simp
    · simp only [List.mem_cons, ih]
      constructor
      · rintro (h | h | h) <;> simp [h]
      · rintro (h | h | h) <;> simp [h]

theorem sorted_insert {p : Placed α} {l : List (Placed α)} (h : Sorted l) :
    Sorted (insert p l) := by
  induction l with
  | nil => simp [insert, Sorted]
  | cons q l ih =>
    obtain ⟨hq, hl⟩ := List.pairwise_cons.1 h
    simp only [insert]
    split
    · rename_i hpq
      refine List.pairwise_cons.2 ⟨?_, h⟩
      intro r hr
      rcases List.mem_cons.1 hr with rfl | hr
      · exact hpq
      · exact Nat.le_trans hpq (hq r hr)
    · rename_i hpq
      refine List.pairwise_cons.2 ⟨?_, ih hl⟩
      intro r hr
      rcases mem_insert.1 hr with rfl | hr
      · omega
      · exact hq r hr

theorem sorted_sort (l : List (Placed α)) : Sorted (sort l) := by
  induction l with
  | nil => exact List.Pairwise.nil
  | cons p l ih => exact sorted_insert ih

theorem filter_insert (n : Nat) (p : Placed α) (l : List (Placed α)) :
    (insert p l).filter (·.place = n) = (p :: l).filter (·.place = n) := by
  induction l with
  | nil => rfl
  | cons q l ih =>
    simp only [insert]
    split
    · rfl
    · rename_i hpq
      by_cases hp : p.place = n
      · have hq : q.place ≠ n := by omega
        simp [ih, hp, hq]
      · simp [List.filter_cons, ih, hp]

theorem filter_sort (n : Nat) (l : List (Placed α)) :
    (sort l).filter (·.place = n) = l.filter (·.place = n) := by
  induction l with
  | nil => rfl
  | cons p l ih =>
    have h : (insert p (sort l)).filter (·.place = n) = (p :: l).filter (·.place = n) := by
      rw [filter_insert, List.filter_cons, List.filter_cons, ih]
    exact h

theorem place_le_of_filter_eq {p : Placed α} {k l : List (Placed α)} {q : Placed α}
    (hl : Sorted (q :: l))
    (h : ∀ n, (p :: k).filter (·.place = n) = (q :: l).filter (·.place = n)) :
    q.place ≤ p.place := by
  have hp : p ∈ (q :: l).filter (·.place = p.place) := by
    rw [← h]
    simp
  rcases List.mem_cons.1 (List.mem_filter.1 hp).1 with rfl | hmem
  · exact Nat.le_refl _
  · exact (List.pairwise_cons.1 hl).1 p hmem

theorem eq_of_filter_eq {k l : List (Placed α)} (hk : Sorted k) (hl : Sorted l)
    (h : ∀ n, k.filter (·.place = n) = l.filter (·.place = n)) : k = l := by
  induction k generalizing l with
  | nil =>
    cases l with
    | nil => rfl
    | cons q l => simpa using h q.place
  | cons p k ih =>
    cases l with
    | nil => simpa using h p.place
    | cons q l =>
      have hqp := place_le_of_filter_eq hl h
      have hpq := place_le_of_filter_eq hk fun n => (h n).symm
      have hplace : p.place = q.place := by omega
      have hhead : p = q := by
        have := h q.place
        simp only [List.filter_cons, hplace, decide_true, if_true, List.cons.injEq] at this
        exact this.1
      subst hhead
      have htail : k = l := by
        refine ih (List.pairwise_cons.1 hk).2 (List.pairwise_cons.1 hl).2 ?_
        intro n
        have := h n
        by_cases hn : p.place = n
        · simpa [List.filter_cons, hn] using this
        · simpa [List.filter_cons, hn] using this
      rw [htail]

theorem flatMap_spread_flatMap (f : α → List β) (g : β → List γ) (l : List (Placed α)) :
    (l.flatMap (spread f)).flatMap (spread g) = l.flatMap (spread fun a => (f a).flatMap g) := by
  have hone : ∀ p : Placed α,
      (spread f p).flatMap (spread g) = spread (fun a => (f a).flatMap g) p := by
    intro p
    simp [spread, List.flatMap_map, List.map_flatMap]
  rw [List.flatMap_assoc]
  simp only [hone]

theorem map_value_spread (f : α → List β) (n : Nat) (l : List α) :
    ((numberFrom n l).flatMap (spread f)).map value = l.flatMap f := by
  induction l generalizing n with
  | nil => rfl
  | cons a l ih => simp [numberFrom, spread, ih, Function.comp_def]

theorem place_of_mem_spread {f : α → List β} {n : Nat} {l : List α} {q : Placed β}
    (h : q ∈ (numberFrom n l).flatMap (spread f)) : n ≤ q.place := by
  induction l generalizing n with
  | nil => simp [numberFrom] at h
  | cons a l ih =>
    simp only [numberFrom, List.flatMap_cons, List.mem_append] at h
    rcases h with h | h
    · simp only [spread, List.mem_map] at h
      obtain ⟨b, -, rfl⟩ := h
      exact Nat.le_refl n
    · have := ih h
      omega

theorem sorted_spread (f : α → List β) (n : Nat) (l : List α) :
    Sorted ((numberFrom n l).flatMap (spread f)) := by
  induction l generalizing n with
  | nil => exact List.Pairwise.nil
  | cons a l ih =>
    refine List.pairwise_append.2 ⟨?_, ih (n + 1), ?_⟩
    · exact List.pairwise_map.2 (List.pairwise_of_forall fun _ _ => Nat.le_refl n)
    · intro p hp q hq
      have hq := place_of_mem_spread hq
      simp only [spread, List.mem_map] at hp
      obtain ⟨b, -, rfl⟩ := hp
      simp only
      omega

theorem filter_spread_of_lt {f : α → List β} {m n : Nat} (l : List α) (h : m < n) :
    ((numberFrom n l).flatMap (spread f)).filter (·.place = m) = [] := by
  refine List.filter_eq_nil_iff.2 ?_
  intro q hq
  have := place_of_mem_spread hq
  simp only [decide_eq_true_eq]
  omega

theorem filter_spread_append (f g : α → List β) (m n : Nat) (l : List α) :
    ((numberFrom n l).flatMap (spread f) ++ (numberFrom n l).flatMap (spread g)).filter
        (·.place = m) =
      ((numberFrom n l).flatMap (spread fun a => f a ++ g a)).filter (·.place = m) := by
  induction l generalizing n with
  | nil => rfl
  | cons a l ih =>
    have hat : ∀ h : α → List β, (spread h ⟨n, a⟩).filter (·.place = m) =
        if n = m then spread h ⟨n, a⟩ else [] := by
      intro h
      by_cases hn : n = m
      · rw [if_pos hn]
        refine List.filter_eq_self.2 ?_
        intro q hq
        simp only [spread, List.mem_map] at hq
        obtain ⟨b, -, rfl⟩ := hq
        simp [hn]
      · rw [if_neg hn]
        refine List.filter_eq_nil_iff.2 ?_
        intro q hq
        simp only [spread, List.mem_map] at hq
        obtain ⟨b, -, rfl⟩ := hq
        simp [hn]
    simp only [numberFrom, List.flatMap_cons, List.filter_append, hat, ← ih (n + 1)]
    by_cases hn : n = m
    · subst hn
      have hlater := fun h : α → List β => filter_spread_of_lt (f := h) l (Nat.lt_succ_self n)
      simp [hlater, spread]
    · simp [hn]

theorem sort_spread_append (f g : α → List β) (n : Nat) (l : List α) :
    sort ((numberFrom n l).flatMap (spread f) ++ (numberFrom n l).flatMap (spread g)) =
      (numberFrom n l).flatMap (spread fun a => f a ++ g a) := by
  refine eq_of_filter_eq (sorted_sort _) (sorted_spread _ n l) ?_
  intro m
  rw [filter_sort, filter_spread_append]

end Placed

end SchemaDiagram.Sql
