set_option autoImplicit false

namespace SchemaDiagram.Unicode

/-- Ranges of code points, both ends included, disjoint and in ascending order. -/
abbrev Ranges := List (Nat × Nat)

/-- Membership; since the ranges ascend, the search stops at the first one that begins beyond. -/
def Ranges.has : Ranges → Nat → Bool
  | [], _ => false
  | (lo, hi) :: rest, n => if n < lo then false else decide (n ≤ hi) || Ranges.has rest n

theorem Ranges.exists_of_has {rs : Ranges} {n : Nat} (h : Ranges.has rs n = true) :
    ∃ r ∈ rs, r.1 ≤ n ∧ n ≤ r.2 := by
  induction rs with
  | nil => simp [Ranges.has] at h
  | cons r rs ih =>
    obtain ⟨lo, hi⟩ := r
    by_cases hlo : n < lo
    · simp [Ranges.has, hlo] at h
    · by_cases hhi : n ≤ hi
      · exact ⟨(lo, hi), by simp, by simp only; omega, hhi⟩
      · have hrest : Ranges.has rs n = true := by simpa [Ranges.has, hlo, hhi] using h
        obtain ⟨r, hr, hn⟩ := ih hrest
        exact ⟨r, List.mem_cons_of_mem _ hr, hn⟩

end SchemaDiagram.Unicode
