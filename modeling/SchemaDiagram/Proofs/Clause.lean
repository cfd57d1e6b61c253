import SchemaDiagram.Proofs.Cut.Unclosed
import SchemaDiagram.Sql.ColumnDeclaration

set_option autoImplicit false

namespace SchemaDiagram.Sql
open Unicode Text

theorem dropWhile_append_mark {p : Char → Bool} {c : Char} (hc : p c = false) (s r : Text) :
    (s ++ c :: r).dropWhile p = s.dropWhile p ++ c :: r := by
  induction s with
  | nil => simp [hc]
  | cons d s ih => by_cases hd : p d <;> simp [hd, ih]

theorem Quoting.exists_outside {q : Quoting} (h : q.isOpen = false) : ∃ b, q = .outside b := by
  cases q with
  | outside b => exact ⟨b, rfl⟩
  | plain c => cases h
  | escape => cases h
  | escaped => cases h

theorem Quoting.width_mask (s : Text) : width (mask s) = width s := width_maskFrom start s

namespace Nesting

theorem step_open (b : Before) (d : Nat) :
    step ⟨.outside b, d⟩ '(' = ⟨.outside .gap, d + 1⟩ := by
  have hgap : Quoting.Before.next b '(' = .gap := by
    have hparen : isAlphanumeric '(' = false := by decide
    simp [Quoting.Before.next, hparen]
  rw [step_outside (c := '(') (by decide), hgap]
  rfl

theorem step_close (b : Before) (d : Nat) :
    step ⟨.outside b, d + 1⟩ ')' = ⟨.outside .gap, d⟩ := by
  have hgap : Quoting.Before.next b ')' = .gap := by
    have hparen : isAlphanumeric ')' = false := by decide
    simp [Quoting.Before.next, hparen]
  rw [step_outside (c := ')') (by decide), hgap]
  rfl

end Nesting

theorem Quoting.step_open (b : Before) : (outside b).step '(' = start :=
  congrArg Nesting.quoting (Nesting.step_open b 0)

theorem Quoting.step_close (b : Before) : (outside b).step ')' = start :=
  congrArg Nesting.quoting (Nesting.step_close b 0)

theorem Balanced.exists_after {e : Text} (he : Balanced e) :
    ∃ b, Quoting.start.after e = .outside b := by
  obtain ⟨b, hb⟩ := he.exists_foldl
  have hquoting := Nesting.quoting_foldl e .opened
  rw [hb] at hquoting
  exact ⟨b, hquoting.symm⟩

/-- What stands in a group and what stands behind it are masked by themselves. -/
theorem Balanced.maskFrom {e : Text} (he : Balanced e) (b : Before) (t : Text) :
    (Quoting.outside b).maskFrom ('(' :: (e ++ ')' :: t)) =
      '(' :: (Quoting.mask e ++ ')' :: Quoting.mask t) := by
  obtain ⟨b', hb'⟩ := he.exists_after
  have hopen : (Quoting.outside b).maskFrom ('(' :: (e ++ ')' :: t)) =
      '(' :: ((Quoting.outside b).step '(').maskFrom (e ++ ')' :: t) := rfl
  have hclose : (Quoting.outside b').maskFrom (')' :: t) =
      ')' :: ((Quoting.outside b').step ')').maskFrom t := rfl
  rw [hopen, Quoting.step_open, Quoting.maskFrom_append, hb', hclose, Quoting.step_close]
  rfl

theorem parenthesized?_of_not_mem {s : Text} (hs : ')' ∉ s) (r : Text) :
    parenthesized? ('(' :: (s ++ ')' :: r)) = some (s, r) := by
  have hopen : mark? '(' (skipBlanks ('(' :: (s ++ ')' :: r))) = some (s ++ ')' :: r) := rfl
  have hall : ∀ c ∈ s, decide (c ≠ ')') = true :=
    fun c hc => decide_eq_true (ne_of_mem_of_not_mem hc hs)
  simp only [parenthesized?, hopen, Option.bind_eq_bind, Option.bind_some,
    List.dropWhile_append_of_pos hall, List.takeWhile_append_of_pos hall]
  simp [mark?]

theorem skipArrayMarks_eq (s : Text) :
    skipArrayMarks s = (match arrayMark? s with
      | some r => skipArrayMarks r
      | none => s) := by
  rw [skipArrayMarks]
  split <;> simp_all

theorem isCapital_default : IsCapital "DEFAULT" := by decide

theorem isCapital_check : IsCapital "CHECK" := by decide

theorem isCapital_references : IsCapital "REFERENCES" := by decide

def readDefault (s : Text) : Option (Unit × Text) := (clause? ["DEFAULT"] s).map fun rest => ((), rest)

theorem leads_readDefault : Leads "DEFAULT" readDefault := (leads_clause? "DEFAULT" []).map _

theorem defaultMark?_eq (masked : Text) :
    defaultMark? masked = search? readDefault (fun _ => true) masked := rfl

def readCheck (s : Text) : Option (Unit × Text) :=
  (do mark? '(' (skipBlanks (← keyword? "CHECK" s))).map fun rest => ((), rest)

theorem leads_readCheck : Leads "CHECK" readCheck := by
  refine Leads.map ?_ _
  intro s hs
  obtain ⟨u, hu⟩ := Option.ne_none_iff_exists'.1 hs
  obtain ⟨r, hr, hopen⟩ := Option.bind_eq_some_iff.1 hu
  refine wholePhrase?_ne_none_iff.2 ⟨r, hr, ?_⟩
  cases r with
  | nil => rfl
  | cons c r =>
    by_cases hc : isBlank c = true
    · simp [endsWord, isWordChar_of_isBlank hc]
    · have hparen : isWordChar '(' = false := by decide
      have hsolid : skipBlanks (c :: r) = c :: r := skipBlanks_solid (by simpa using hc) r
      have hcons := eq_cons_of_mark? hopen
      rw [hsolid] at hcons
      cases hcons
      simp [endsWord, hparen]

theorem checkMark?_eq (masked : Text) :
    checkMark? masked = search? readCheck (fun _ => true) masked := rfl

theorem leads_referenceClause? : Leads "REFERENCES" referenceClause? :=
  (leads_clause? "REFERENCES" []).bind _

theorem slice?_append (u h t : Text) :
    slice? (width u) (width (u ++ h)) (u ++ (h ++ t)) = some h := by
  have hwidth : width (u ++ h) - width u = width h := by
    rw [width_append, Nat.add_sub_cancel_left]
  simp only [slice?, dropBytes?_width_append, hwidth, Option.bind_eq_bind, Option.bind_some]
  exact congrArg some (take_of_eq_append rfl)

theorem checkClause?_of_found {u x masked : Text}
    (h : checkMark? masked = some ⟨width u, width (u ++ x), ()⟩) (v : Text) :
    checkClause? (u ++ (x ++ v)) masked = (group? v).map fun p => x ++ p.1 ++ [')'] := by
  have hdrop : dropBytes? (width (u ++ x)) (u ++ (x ++ v)) = some v := by
    rw [← List.append_assoc]
    exact dropBytes?_width_append _ _
  simp only [checkClause?, h, slice?_append, hdrop, Option.bind_eq_bind, Option.bind_some]
  cases group? v <;> rfl

end SchemaDiagram.Sql
