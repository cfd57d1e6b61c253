import SchemaDiagram.Proofs.Clause

/-!
Searching a text on both sides of a mark. No word holds the mark, so readers of words stop in front
of it (`StopsAt`). Where that is so at every place in front of it, what a search finds is what it
finds in front of the mark, or else what it finds behind it (`search?_seam`).
-/

set_option autoImplicit false

namespace SchemaDiagram.Sql
open Unicode Text

/-- From the text in front of the mark, what is read is what is read from the text alone. -/
def StopsAt (m : Char) (read : Text → Option Text) (s : Text) : Prop :=
  ∀ t, read (s ++ m :: t) = (read s).map (· ++ m :: t)

namespace StopsAt
variable {m : Char} {read next : Text → Option Text} {s : Text}

theorem bind (h : StopsAt m read s) (hnext : ∀ r, read s = some r → StopsAt m next r) :
    StopsAt m (fun s => (read s).bind next) s := by
  intro t
  simp only [h t]
  cases hr : read s with
  | none => rfl
  | some r => exact hnext r hr t

theorem orElse (h : StopsAt m read s) (hnext : StopsAt m next s) :
    StopsAt m (fun s => read s <|> next s) s := by
  intro t
  simp only [h t, hnext t]
  cases read s <;> rfl

theorem behind {skip : Text → Text} (hskip : ∀ t, skip (s ++ m :: t) = skip s ++ m :: t)
    (h : StopsAt m read (skip s)) : StopsAt m (fun s => read (skip s)) s := by
  intro t
  simp only [hskip t, h t]

theorem optional (h : StopsAt m read s) (t : Text) :
    Sql.optional read (s ++ m :: t) = Sql.optional read s ++ m :: t := by
  rw [Sql.optional, h t, Sql.optional]
  cases read s <;> rfl

end StopsAt

section
variable {m : Char} (hm : isWordChar m = false) (hb : isBlank m = false)

section
include hm

theorem stopsAt_keyword? {w : Text} (hw : ∀ k ∈ w, k.isUpper = true) (s : Text) :
    StopsAt m (keyword? w) s :=
  fun t => keyword?_append hw (by simp [endsWord, hm]) s

theorem endsWord_append_mark (s t : Text) : endsWord (s ++ m :: t) = endsWord s := by
  cases s with
  | nil => simp [endsWord, hm]
  | cons c s => rfl

end

include hb

theorem skipBlanks_append_mark (s t : Text) : skipBlanks (s ++ m :: t) = skipBlanks s ++ m :: t :=
  dropWhile_append_mark hb s t

theorem stopsAt_blanks? (s : Text) : StopsAt m blanks? s := by
  intro t
  cases s with
  | nil => simp [blanks?, hb]
  | cons c s =>
    rw [List.cons_append, blanks?, blanks?, skipBlanks_append_mark hb]
    split <;> rfl

include hm

theorem stopsAt_phrase? {ws : List Text} (hne : ws ≠ []) (hws : ∀ w ∈ ws, ∀ k ∈ w, k.isUpper = true)
    (s : Text) : StopsAt m (phrase? ws) s := by
  induction ws generalizing s with
  | nil => exact absurd rfl hne
  | cons w ws ih =>
    obtain ⟨hw, hws⟩ := List.forall_mem_cons.1 hws
    cases ws with
    | nil => exact stopsAt_keyword? hm hw s
    | cons v ws =>
      refine (stopsAt_keyword? hm hw s).bind fun r _ => ?_
      exact (stopsAt_blanks? hb r).bind fun u _ => ih (List.cons_ne_nil v ws) hws u

theorem stopsAt_clause? {ws : List Text} (hws : ∀ w ∈ ws, ∀ k ∈ w, k.isUpper = true) (s : Text) :
    StopsAt m (clause? ws) s := by
  induction ws generalizing s with
  | nil => exact fun t => rfl
  | cons w ws ih =>
    obtain ⟨hw, hws⟩ := List.forall_mem_cons.1 hws
    refine (stopsAt_keyword? hm hw s).bind fun r _ => ?_
    exact (stopsAt_blanks? hb r).bind fun u _ => ih hws u

theorem stopsAt_wholePhrase? {ws : List Text} (hne : ws ≠ [])
    (hws : ∀ w ∈ ws, ∀ k ∈ w, k.isUpper = true) (s : Text) : StopsAt m (wholePhrase? ws) s := by
  refine (stopsAt_phrase? hm hb hne hws s).bind fun r _ t => ?_
  rw [endsWord_append_mark hm]
  split <;> rfl

end

namespace Found

def shift {α : Type} (n : Nat) (f : Found α) : Found α := ⟨n + f.start, n + f.stop, f.value⟩

end Found

def Local {α : Type} (read : Text → Option (α × Text)) (rest : Text) : Option Char → Text → Prop
  | _, [] => True
  | before, c :: s =>
    (beginsWord before = true →
      read (c :: s ++ rest) = (read (c :: s)).map fun x => (x.1, x.2 ++ rest)) ∧
    Local read rest (some c) s

theorem local_of_stopsAt {m : Char} {read : Text → Option Text} (h : ∀ s, StopsAt m read s)
    (t : Text) (before : Option Char) (s : Text) :
    Local (fun u => (read u).map fun r => ((), r)) (m :: t) before s := by
  induction s generalizing before with
  | nil => trivial
  | cons c s ih =>
    refine ⟨fun _ => ?_, ih _⟩
    simp only [h (c :: s) t, Option.map_map]
    rfl

section
variable {α : Type} {read : Text → Option (α × Text)} {accept : Nat → Bool}

theorem searchFrom?_append {rest s : Text} {before : Option Char} (h : Local read rest before s)
    {passed : Nat} (hpassed : passed ≤ s.length) (offset : Nat) :
    searchFrom? read accept before passed offset (s ++ rest) =
      (searchFrom? read accept before passed offset s).or
        (searchFrom? read accept (lastOf before s) 0 (offset + width s) rest) := by
  induction s generalizing before passed offset with
  | nil =>
    have hzero : passed = 0 := Nat.le_zero.1 hpassed
    subst hzero
    simp [searchFrom?, lastOf, width]
  | cons c s ih =>
    have hoffset : offset + width (c :: s) = offset + c.utf8Size + width s := by
      rw [width, Nat.add_assoc]
    rw [hoffset, lastOf]
    cases passed with
    | succ passed => exact ih h.2 (Nat.le_of_succ_le_succ hpassed) _
    | zero =>
      have hread : (if beginsWord before = true then read (c :: s ++ rest) else none) =
          (if beginsWord before = true then read (c :: s) else none).map
            fun x => (x.1, x.2 ++ rest) := by
        split
        · rename_i hbefore
          exact h.1 hbefore
        · rfl
      rw [List.cons_append] at hread ⊢
      rw [searchFrom?, searchFrom?, hread]
      generalize (if beginsWord before = true then read (c :: s) else none) = found
      cases found with
      | none => exact ih h.2 (Nat.zero_le _) _
      | some x =>
        obtain ⟨v, r⟩ := x
        -- What is left to pass over is the same, in characters and in bytes.
        have hlength : (s ++ rest).length - (r ++ rest).length = s.length - r.length := by
          simp only [List.length_append]
          omega
        have hwidth : width (c :: (s ++ rest)) - width (r ++ rest) = width (c :: s) - width r := by
          simp only [width, width_append]
          omega
        simp only [Option.map_some, hlength, hwidth]
        split
        · rfl
        · exact ih h.2 (Nat.sub_le _ _) _

theorem searchFrom?_shift (n : Nat) (before : Option Char) (passed offset : Nat) (s : Text) :
    searchFrom? read accept before passed (n + offset) s =
      (searchFrom? read (fun k => accept (n + k)) before passed offset s).map (Found.shift n) := by
  induction s generalizing before passed offset with
  | nil => rfl
  | cons c s ih =>
    cases passed with
    | succ passed =>
      rw [searchFrom?, searchFrom?, Nat.add_assoc]
      exact ih _ _ _
    | zero =>
      rw [searchFrom?, searchFrom?]
      split
      · split
        · simp [Found.shift, Nat.add_assoc]
        · rw [Nat.add_assoc]
          exact ih _ _ _
      · rw [Nat.add_assoc]
        exact ih _ _ _

theorem searchFrom?_before {before before' : Option Char} (h : beginsWord before = beginsWord before')
    (passed offset : Nat) (s : Text) :
    searchFrom? read accept before passed offset s =
      searchFrom? read accept before' passed offset s := by
  cases s with
  | nil => rfl
  | cons c s => cases passed <;> simp [searchFrom?, h]

theorem stop_le_of_searchFrom? {before : Option Char} {passed offset : Nat} {s : Text}
    {found : Found α} (h : searchFrom? read accept before passed offset s = some found) :
    found.stop ≤ offset + width s := by
  fun_induction searchFrom? read accept before passed offset s with
  | case1 => cases h
  | case2 before passed offset c s ih =>
    have := ih h
    rw [width]
    omega
  | case3 before offset c s value rest hread haccept =>
    cases h
    simp only
    omega
  | case4 before offset c s value rest hread haccept ih =>
    have := ih h
    rw [width]
    omega
  | case5 before offset c s hread ih =>
    have := ih h
    rw [width]
    omega

/-- What begins with a word is found in front of a mark or else behind it. -/
theorem search?_seam {w : Text} (hw : IsCapital w) (hread : Leads w read) {m : Char}
    (hm : isWordChar m = false) {s t : Text} (h : Local read (m :: t) none s) :
    search? read accept (s ++ m :: t) =
      (search? read accept s).or
        ((search? read (fun k => accept (width (s ++ [m]) + k)) t).map
          (Found.shift (width (s ++ [m])))) := by
  have hsilent : Silent read t (lastOf none s) [m] := Silent.of_leads hread (silent_of_gap hw hm)
  have hpast : searchFrom? read accept (lastOf none s) 0 (width s) (m :: t) =
      searchFrom? read accept (lastOf (lastOf none s) [m]) 0 (width s + width [m]) t :=
    searchFrom?_silent hsilent (width s)
  have hbefore : beginsWord (lastOf (lastOf none s) [m]) = beginsWord none := by
    simp [lastOf, beginsWord, hm]
  have hshift : searchFrom? read accept none 0 (width (s ++ [m])) t = _ :=
    searchFrom?_shift (width (s ++ [m])) none 0 0 t
  rw [← width_append, searchFrom?_before hbefore, hshift] at hpast
  rw [search?, searchFrom?_append h (Nat.zero_le _), Nat.zero_add, hpast]
  rfl

end

section
variable {m : Char} (hm : isWordChar m = false) (hb : isBlank m = false) (s t : Text)
include hm

theorem find?_seam {w : Text} (hw : IsCapital w) {read : Text → Option Text} (hlead : Leads w read)
    (hstops : ∀ s, StopsAt m read s) :
    find? read (s ++ m :: t) =
      (find? read s).or ((find? read t).map (Found.shift (width (s ++ [m])))) :=
  search?_seam hw (hlead.map _) hm (local_of_stopsAt hstops t none s)

include hb

theorem hasPhrase_seam {w : Text} {ws : List Text} (hws : ∀ v ∈ w :: ws, IsCapital v) :
    hasPhrase (w :: ws) (s ++ m :: t) = (hasPhrase (w :: ws) s || hasPhrase (w :: ws) t) := by
  have hstops := stopsAt_wholePhrase? hm hb (List.cons_ne_nil w ws) fun v hv => (hws v hv).2
  rw [hasPhrase, find?_seam hm s t (hws w List.mem_cons_self) (leads_wholePhrase? w ws) hstops,
    Option.isSome_or, Option.isSome_map]
  rfl

theorem defaultMark?_seam :
    defaultMark? (s ++ m :: t) =
      (defaultMark? s).or ((defaultMark? t).map (Found.shift (width (s ++ [m])))) :=
  find?_seam hm s t isCapital_default (leads_clause? "DEFAULT" [])
    (stopsAt_clause? hm hb (by decide))

end

theorem dropBytes?_append {n : Nat} {s : Text} (h : n ≤ width s) (t : Text) :
    dropBytes? n (s ++ t) = (dropBytes? n s).map (· ++ t) := by
  induction s generalizing n with
  | nil =>
    have hzero : n = 0 := Nat.le_zero.1 h
    subst hzero
    simp [dropBytes?]
  | cons c s ih =>
    cases n with
    | zero => simp [dropBytes?]
    | succ n =>
      rw [width] at h
      rw [List.cons_append, dropBytes?, dropBytes?]
      split
      · exact ih (by omega)
      · rfl

theorem dropBytes?_width_add (s : Text) (n : Nat) (t : Text) :
    dropBytes? (width s + n) (s ++ t) = dropBytes? n t := by
  induction s with
  | nil => simp [width]
  | cons c s ih =>
    have hc := Char.utf8Size_pos c
    obtain ⟨k, hk⟩ : ∃ k, c.utf8Size + width s + n = k + 1 := ⟨c.utf8Size + width s + n - 1, by omega⟩
    have hle : c.utf8Size ≤ k + 1 := by omega
    have hsub : k + 1 - c.utf8Size = width s + n := by omega
    rw [width, hk, List.cons_append, dropBytes?, if_pos hle, hsub, ih]

end SchemaDiagram.Sql
