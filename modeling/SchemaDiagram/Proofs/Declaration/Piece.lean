import SchemaDiagram.Proofs.Declaration.TypeName

set_option autoImplicit false

namespace SchemaDiagram.Declaration
open Sql Unicode Text

theorem IsToken.exists_foldl {s : Text} (hs : IsToken s) :
    ∃ b, s.foldl Nesting.step .start = ⟨.outside b, 0⟩ := by
  have hquoting := Nesting.quoting_foldl s .start
  obtain ⟨b, hb⟩ := Quoting.exists_outside hs.closed
  refine ⟨b, ?_⟩
  have hsame : (s.foldl Nesting.step .start).quoting = .outside b := hquoting.trans hb
  have hlevel := hs.level
  generalize s.foldl Nesting.step .start = n at hsame hlevel
  obtain ⟨q, d⟩ := n
  cases hsame
  cases hlevel
  rfl

theorem IsToken.value {s : Text} (hs : IsToken s) (ts : List Text) : value (s ++ spaced ts) = s := by
  obtain ⟨b, hb⟩ := hs.exists_foldl
  have hend : (spanWith Nesting.step Nesting.stops ⟨.outside b, 0⟩ (spaced ts)).1 = [] := by
    cases ts with
    | nil => rfl
    | cons t ts =>
      have hstop : Nesting.stops ⟨.outside b, 0⟩ ' ' = true := rfl
      have hspaced : spaced (t :: ts) = ' ' :: (t ++ spaced ts) := rfl
      rw [hspaced, spanWith, if_pos hstop]
  rw [Sql.value, spanWith_of_quiet hs.quiet, hb, hend, List.append_nil]

/-- Passed outside quotes at any depth, by the scan for the end of a value. -/
structure Inside (s : Text) : Prop where
  quiet : ∀ b d, Quiet Nesting.step Nesting.stops ⟨.outside b, d⟩ s
  back : ∀ b d, ∃ b', s.foldl Nesting.step ⟨.outside b, d⟩ = ⟨.outside b', d⟩

theorem Inside.append {s t : Text} (hs : Inside s) (ht : Inside t) : Inside (s ++ t) where
  quiet b d := by
    obtain ⟨b', hb'⟩ := hs.back b d
    rw [quiet_append, hb']
    exact ⟨hs.quiet b d, ht.quiet b' d⟩
  back b d := by
    obtain ⟨b', hb'⟩ := hs.back b d
    rw [List.foldl_append, hb']
    exact ht.back b' d

theorem inside_of_flat {s : Text} (hs : Flat s) (hcomma : ∀ c ∈ s, c ≠ ',')
    (hblank : ∀ c ∈ s, isBlank c = false) : Inside s where
  quiet b d := by
    refine hs.quiet ?_ b
    intro c hc b
    simp [Nesting.stops, hcomma c hc, hblank c hc, (hs c hc).2.2]
  back b d := hs.foldl b d

theorem Inside.isToken {s : Text} (hs : Inside s) (hne : s ≠ []) : IsToken s := by
  obtain ⟨b, hb⟩ := hs.back .gap 0
  have hquoting := Nesting.quoting_foldl s .start
  refine ⟨hne, hs.quiet .gap 0, ?_, ?_⟩
  · rw [← show Nesting.start.quoting = Quoting.start from rfl, ← hquoting]
    exact congrArg (fun n : Nesting => n.quoting.isOpen) hb
  · exact congrArg Nesting.depth hb

theorem inside_plain {s : Text} (hs : Script.Plain s) : Inside s :=
  inside_of_flat hs.flat (hs.ne_mark (by decide)) hs.isBlank

theorem quiet_stops {n : Nesting} {s : Text} (hs : Quiet Nesting.step Nesting.closes n s)
    (hdepth : 1 ≤ n.depth) : Quiet Nesting.step Nesting.stops n s := by
  induction s generalizing n with
  | nil => trivial
  | cons c s ih =>
    have hdeep : n.depth ≠ 0 := by omega
    refine ⟨by simp [Nesting.stops, hdeep], ih hs.2 ?_⟩
    exact (Nesting.step_deeper hdepth hs.1 0).1

theorem stops_deep {n : Nesting} (hn : n.depth ≠ 0) (c : Char) : Nesting.stops n c = false := by
  simp [Nesting.stops, hn]

theorem isToken_group (e : Expression) : IsToken ('(' :: (e.text ++ [')'])) := by
  obtain ⟨b, hb⟩ := e.balanced.exists_foldl
  have hopen : Nesting.step .start '(' = .opened := Nesting.step_open .gap 0
  have hfoldl : ('(' :: (e.text ++ [')'])).foldl Nesting.step .start = ⟨.outside .gap, 0⟩ := by
    rw [List.foldl_cons, hopen, List.foldl_append, hb]
    exact Nesting.step_close b 0
  have hquoting := Nesting.quoting_foldl ('(' :: (e.text ++ [')'])) .start
  rw [hfoldl] at hquoting
  refine ⟨List.cons_ne_nil _ _, ⟨rfl, ?_⟩, ?_, by rw [hfoldl]⟩
  · rw [hopen, quiet_append, hb]
    exact ⟨quiet_stops e.balanced.quiet (Nat.le_refl 1), stops_deep Nat.one_ne_zero ')', trivial⟩
  · exact congrArg Quoting.isOpen hquoting.symm

namespace Part

theorem isBare {text : Text} (h : bareName? text = some (text, [])) : IsBare text := by
  obtain ⟨c, r, -, -, hbare⟩ := isBare_of_bareName? h
  exact hbare

theorem foldl_quoted {inside : Text} (hquote : '"' ∉ inside) (d : Nat) :
    Quiet Nesting.step Nesting.stops ⟨.plain '"', d⟩ inside ∧
      inside.foldl Nesting.step ⟨.plain '"', d⟩ = ⟨.plain '"', d⟩ := by
  induction inside with
  | nil => exact ⟨trivial, rfl⟩
  | cons c s ih =>
    obtain ⟨hc, hs⟩ := not_or.1 (mt List.mem_cons.2 hquote)
    have hstep : Nesting.step ⟨.plain '"', d⟩ c = ⟨.plain '"', d⟩ := by
      simp [Nesting.step, Quoting.step, Quoting.covers, Quoting.isOpen, Ne.symm hc]
    obtain ⟨hquiet, hfoldl⟩ := ih hs
    refine ⟨⟨rfl, ?_⟩, ?_⟩
    · rwa [hstep]
    · rw [List.foldl_cons, hstep, hfoldl]

theorem inside (p : Part) : Inside p.text := by
  cases p with
  | bare text h =>
    have hbare := isBare h
    exact inside_of_flat (flat_of_isBare hbare) (hbare.ne (by decide)) hbare.solid
  | quoted inside hne hquote =>
    have hopen : ∀ b d, Nesting.step ⟨.outside b, d⟩ '"' = ⟨.plain '"', d⟩ := fun _ _ => rfl
    refine ⟨?_, ?_⟩
    · intro b d
      obtain ⟨hquiet, hfoldl⟩ := foldl_quoted hquote d
      refine ⟨rfl, ?_⟩
      rw [hopen, quiet_append, hfoldl]
      exact ⟨hquiet, rfl, trivial⟩
    · intro b d
      refine ⟨.gap, ?_⟩
      rw [Part.text, List.foldl_cons, hopen, List.foldl_append, (foldl_quoted hquote d).2]
      rfl

end Part

theorem TableName.inside (t : TableName) : Inside t.text := by
  obtain ⟨schema?, name⟩ := t
  cases schema? with
  | none => exact name.inside
  | some s =>
    have hpoint : Inside ['.'] := inside_of_flat (by decide) (by decide) (by decide)
    have htext : (TableName.mk (some s) name).text = s.text ++ (['.'] ++ name.text) := rfl
    rw [htext]
    exact s.inside.append (hpoint.append name.inside)

theorem inside_target (t : TableName) (c : Part) : Inside (t.text ++ '(' :: (c.text ++ [')'])) := by
  have hgroup : Inside ('(' :: (c.text ++ [')'])) := by
    refine ⟨?_, ?_⟩
    · intro b d
      obtain ⟨b', hb'⟩ := c.inside.back .gap (d + 1)
      refine ⟨by simp [Nesting.stops, show isBlank '(' = false by decide], ?_⟩
      rw [Nesting.step_open, quiet_append, hb']
      exact ⟨c.inside.quiet .gap (d + 1), stops_deep (Nat.succ_ne_zero d) ')', trivial⟩
    · intro b d
      obtain ⟨b', hb'⟩ := c.inside.back .gap (d + 1)
      refine ⟨.gap, ?_⟩
      rw [List.foldl_cons, Nesting.step_open, List.foldl_append, hb']
      exact Nesting.step_close b' d
  exact t.inside.append hgroup

theorem Piece.isToken (k : Casing) (p : Piece) : IsToken (p.text k) := by
  cases p with
  | word w =>
    have hplain := k.plain_spell w.isCapital
    exact (inside_plain hplain).isToken hplain.1
  | value v => exact v.isToken
  | group e => exact isToken_group e
  | target t c =>
    refine (inside_target t c).isToken ?_
    exact List.append_ne_nil_of_right_ne_nil _ (List.cons_ne_nil _ _)

theorem mask_spaced {ts : List Text} (h : ∀ t ∈ ts, IsToken t) :
    Quoting.mask (spaced ts) = spaced (ts.map Quoting.mask) := by
  have hfrom : ∀ b, (Quoting.outside b).maskFrom (spaced ts) = spaced (ts.map Quoting.mask) := by
    induction ts with
    | nil => exact fun _ => rfl
    | cons t ts ih =>
      intro b
      obtain ⟨ht, hts⟩ := List.forall_mem_cons.1 h
      have hspaced : spaced (t :: ts) = (' ' :: t) ++ spaced ts := rfl
      have hspace : (Quoting.outside b).step ' ' = .start := by
        rw [Quoting.step_outside (c := ' ') (by decide), Quoting.next_space]
        rfl
      have hfirst : (Quoting.outside b).maskFrom (' ' :: t) = ' ' :: Quoting.mask t := by
        rw [Quoting.maskFrom, hspace]
        rfl
      have hafter : (Quoting.outside b).after (' ' :: t) = Quoting.start.after t :=
        congrArg (fun q : Quoting => q.after t) hspace
      obtain ⟨b', hb'⟩ := Quoting.exists_outside ht.closed
      rw [hspaced, Quoting.maskFrom_append, hfirst, hafter, hb', ih hts b']
      rfl
  exact hfrom .gap

def maskedPieces (k : Casing) (ps : List Piece) : Text :=
  spaced (ps.map fun p => Quoting.mask (p.text k))

theorem mask_pieces (k : Casing) (ps : List Piece) :
    Quoting.mask (spacedPieces k ps) = maskedPieces k ps := by
  have htokens : ∀ t ∈ ps.map (Piece.text k), IsToken t := by
    intro t ht
    obtain ⟨p, -, rfl⟩ := List.mem_map.1 ht
    exact p.isToken k
  rw [spacedPieces, mask_spaced htokens, List.map_map]
  rfl

theorem mask_word (k : Casing) (w : Keyword) : Quoting.mask (k.spell w.text) = k.spell w.text :=
  Quoting.mask_of_not_quote fun c hc => ((k.plain_spell w.isCapital).flat c hc).1

theorem stops_blank {n : Nesting} {c : Char} (hopen : n.quoting.isOpen = false) (hn : n.depth = 0)
    (hc : isBlank c = true) : Nesting.stops n c = true := by
  simp [Nesting.stops, Quoting.covers, hopen, hn, hc, Quoting.isQuote_of_isBlank hc]

/-- A token begins with a character that is no blank, and the mask keeps it. -/
theorem IsToken.mask_head {s : Text} (hs : IsToken s) :
    ∃ c r, Quoting.mask s = c :: r ∧ isBlank c = false := by
  obtain ⟨c, r, rfl⟩ := List.exists_cons_of_ne_nil hs.nonempty
  refine ⟨c, Quoting.maskFrom (Quoting.start.step c) r, rfl, ?_⟩
  by_contra hblank
  have hstop := stops_blank (n := .start) rfl rfl (by simpa using hblank)
  rw [hs.quiet.1] at hstop
  cases hstop

theorem regular_foldl {n : Nesting} (hn : n.quoting.Regular) (s : Text) :
    (s.foldl Nesting.step n).quoting.Regular := by
  induction s generalizing n with
  | nil => exact hn
  | cons c s ih => exact ih (hn.step c)

theorem isOpen_settled (q : Quoting) : q.settled.isOpen = q.isOpen := by cases q <;> rfl

theorem IsToken.getLast? {s : Text} (hs : IsToken s) {c : Char} (hc : s.getLast? = some c) :
    isBlank c = false := by
  obtain ⟨r, rfl⟩ := List.getLast?_eq_some_iff.1 hc
  by_contra hblank
  have hblank : isBlank c = true := by simpa using hblank
  have hstep := Nesting.step_blank (regular_foldl (n := .start) Quoting.regular_start r) hblank
  obtain ⟨b, hb⟩ := hs.exists_foldl
  rw [List.foldl_append, List.foldl_cons, List.foldl_nil, hstep] at hb
  have hopen := congrArg (fun n : Nesting => n.quoting.isOpen) hb
  have hstop := stops_blank ((isOpen_settled _).symm.trans hopen) (congrArg Nesting.depth hb) hblank
  rw [(quiet_append.1 hs.quiet).2.1] at hstop
  cases hstop

end SchemaDiagram.Declaration
