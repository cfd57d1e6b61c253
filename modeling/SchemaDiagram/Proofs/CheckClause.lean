import Mathlib.Data.Nat.Find
import SchemaDiagram.Proofs.Search.Region
import SchemaDiagram.Proofs.TypeParts

/-!
The check of a column. Which part of a text is listed is said by places of the text itself: from the
first word of a check outside quotes to the parenthesis that closes its group
(`checkClause?_eq_some_iff`). Whether a check is listed is told by its word again, compared in ASCII,
and a word may be spelled with the Kelvin sign (`lists_ofFragment?`).
-/

set_option autoImplicit false

namespace SchemaDiagram.Sql
open Unicode Text

/-- At a word boundary outside quotes stand the word of a check, blanks if any, and a parenthesis. -/
structure CheckAt (q : Quoting) (s : Text) (start opening : Nat) : Prop where
  begins : beginsWord (lastOf none (s.take start)) = true
  outside : (q.after (s.take start)).isOpen = false
  word : ∃ w gap, s.extract start opening = w ++ gap ∧ Spells "CHECK" w ∧ IsGap gap
  paren : s[opening]? = some '('

structure FirstCheck (q : Quoting) (s : Text) (start opening : Nat) : Prop where
  check : CheckAt q s start opening
  first : ∀ n < start, ∀ m, ¬ CheckAt q s n m

section
variable {q : Quoting} {s : Text} {start opening : Nat}

theorem length_of_spells {w u : Text} (h : Spells w u) : u.length = w.length := by
  have hlength := (keyword?_suffix h).2
  rwa [List.length_nil, Nat.zero_add, eq_comm] at hlength

theorem checkAt_of_append {u w gap v : Text} (hbegins : beginsWord (lastOf none u) = true)
    (houtside : (q.after u).isOpen = false) (hw : Spells "CHECK" w) (hgap : IsGap gap) :
    CheckAt q (u ++ (w ++ (gap ++ '(' :: v))) u.length (u ++ (w ++ gap)).length := by
  have htake : (u ++ (w ++ (gap ++ '(' :: v))).take u.length = u := List.take_left
  refine ⟨by rwa [htake], by rwa [htake], ⟨w, gap, ?_, hw, hgap⟩, ?_⟩
  · rw [List.extract_eq_take_drop, List.drop_left, List.length_append, Nat.add_sub_cancel_left,
      ← List.append_assoc, List.take_left]
  · rw [← List.append_assoc w, ← List.append_assoc u, List.getElem?_append_right (Nat.le_refl _),
      Nat.sub_self]
    rfl

theorem CheckAt.exists_append (h : CheckAt q s start opening) :
    ∃ u w gap v, s = u ++ (w ++ (gap ++ '(' :: v)) ∧ start = u.length ∧
      opening = (u ++ (w ++ gap)).length ∧ Spells "CHECK" w ∧ IsGap gap := by
  obtain ⟨w, gap, hword, hw, hgap⟩ := h.word
  have hlength : w.length = 5 := length_of_spells hw
  have hlt := (List.getElem?_eq_some_iff.1 h.paren).1
  have hextract := congrArg List.length hword
  simp only [List.extract_eq_take_drop, List.length_take, List.length_drop,
    List.length_append] at hextract
  have hsplit : s.drop start = (w ++ gap) ++ '(' :: s.drop (opening + 1) := by
    rw [← hword, List.extract_eq_take_drop, ← drop_of_getElem? h.paren]
    have hdrop : s.drop opening = (s.drop start).drop (opening - start) := by
      rw [List.drop_drop, Nat.add_sub_cancel' (by omega)]
    rw [hdrop, List.take_append_drop]
  refine ⟨s.take start, w, gap, s.drop (opening + 1), ?_, ?_, ?_, hw, hgap⟩
  · rw [← List.append_assoc w, ← hsplit, List.take_append_drop]
  · rw [List.length_take]
    omega
  · rw [List.length_append, List.length_append, List.length_take]
    omega

end

theorem Quoting.lastOf_maskFrom {q : Quoting} {u : Text} (h : (q.after u).isOpen = false) :
    lastOf none (q.maskFrom u) = lastOf none u := by
  rcases List.eq_nil_or_concat' u with rfl | ⟨u, c, rfl⟩
  · rfl
  · have hshown : (q.after u).maskFrom [c] = [c] := by
      have hclosed : ((q.after u).step c).isOpen = false := by
        rw [after_append] at h
        exact h
      simp [maskFrom, hclosed]
    rw [maskFrom_append, hshown, lastOf_append, lastOf_append]
    rfl

theorem maskFrom_check {w gap : Text} (hw : Spells "CHECK" w) (hgap : IsGap gap) (b : Before)
    (v : Text) : (Quoting.outside b).maskFrom (w ++ (gap ++ '(' :: v)) =
      w ++ (gap ++ '(' :: Quoting.mask v) := by
  have hquotes := isQuote_of_wordGap (isWordChar_of_keyword? (by decide) hw) hgap
  obtain ⟨b', hb'⟩ := Quoting.exists_after_outside hquotes b
  have hopen : (Quoting.outside b').maskFrom ('(' :: v) = '(' :: Quoting.mask v :=
    congrArg (fun q : Quoting => '(' :: q.maskFrom v) (Quoting.step_open b')
  rw [← List.append_assoc, Quoting.maskFrom_append, Quoting.maskFrom_outside hquotes, hb', hopen,
    List.append_assoc]

theorem readCheck_append {w gap : Text} (hw : Spells "CHECK" w) (hgap : IsGap gap) (v : Text) :
    readCheck (w ++ (gap ++ '(' :: v)) = some ((), v) := by
  have hword : keyword? "CHECK" (w ++ (gap ++ '(' :: v)) = some (gap ++ '(' :: v) :=
    keyword?_exchange (t := []) (r := []) _ (by rwa [List.append_nil])
  have hskip : skipBlanks (gap ++ '(' :: v) = '(' :: v := by
    rw [skipBlanks, List.dropWhile_append_of_pos hgap]
    exact skipBlanks_solid (by decide) v
  rw [readCheck, hword, Option.bind_eq_bind, Option.bind_some, hskip]
  rfl

theorem silent_of_places {β : Type} {read : Text → Option β} {rest : Text} {before : Option Char}
    {s : Text} (h : ∀ a c b, s = a ++ c :: b → beginsWord (lastOf before a) = true →
      read (c :: b ++ rest) = none) : Silent read rest before s := by
  induction s generalizing before with
  | nil => trivial
  | cons c s ih => exact ⟨h [] c s rfl, ih fun a d b hs => h (c :: a) d b (by rw [hs]; rfl)⟩

/-- Where the mask shows the beginning of a check at a word boundary, there is one in the text. -/
theorem exists_checkAt {s mu mv r : Text} (hmask : Quoting.mask s = mu ++ mv)
    (hbegins : beginsWord (lastOf none mu) = true) (hread : readCheck mv = some ((), r)) :
    ∃ u v opening, s = u ++ v ∧ Quoting.mask u = mu ∧ CheckAt .start s u.length opening := by
  obtain ⟨u, w, gap, v, b, rfl, -, rfl, hb, hw, -, hgap⟩ := exists_of_readCheck_mask hmask hread
  have hclosed : (Quoting.start.after u).isOpen = false := by
    rw [hb]
    rfl
  rw [Quoting.mask, Quoting.lastOf_maskFrom hclosed] at hbegins
  exact ⟨u, _, _, rfl, rfl, checkAt_of_append hbegins hclosed hw hgap⟩

theorem silent_of_first {u v rest : Text} (hmask : Quoting.mask (u ++ v) = Quoting.mask u ++ rest)
    (hfirst : ∀ n < u.length, ∀ m, ¬ CheckAt .start (u ++ v) n m) :
    Silent readCheck rest none (Quoting.mask u) := by
  refine silent_of_places fun a c t hu hplace => ?_
  cases hread : readCheck (c :: t ++ rest) with
  | none => rfl
  | some p =>
    rw [hu, List.append_assoc] at hmask
    obtain ⟨x, y, opening, hsplit, hx, hat⟩ := exists_checkAt hmask hplace hread
    refine absurd hat (hfirst x.length (Nat.lt_of_not_le fun hle => ?_) opening)
    -- A longer beginning of the text would have a longer mask.
    obtain ⟨z, rfl⟩ : u <+: x := List.prefix_of_prefix_length_le
      (List.prefix_append u v) (hsplit ▸ List.prefix_append x y) hle
    rw [Quoting.mask, Quoting.maskFrom_append] at hx
    have hlength := congrArg List.length hx
    rw [List.length_append, ← Quoting.mask, hu, List.length_append, List.length_cons] at hlength
    omega

theorem checkMark?_of_first {s : Text} {start opening : Nat}
    (h : FirstCheck .start s start opening) :
    checkMark? (Quoting.mask s) =
      some ⟨width (s.take start), width (s.take (opening + 1)), ()⟩ := by
  obtain ⟨hcheck, hfirst⟩ := h
  have hbegins := hcheck.begins
  have hclosed := hcheck.outside
  obtain ⟨u, w, gap, v, rfl, rfl, rfl, hw, hgap⟩ := hcheck.exists_append
  have htake : (u ++ (w ++ (gap ++ '(' :: v))).take u.length = u := List.take_left
  rw [htake] at hbegins hclosed ⊢
  obtain ⟨b, hb⟩ := Quoting.exists_outside hclosed
  have hmask : Quoting.mask (u ++ (w ++ (gap ++ '(' :: v))) =
      Quoting.mask u ++ (w ++ (gap ++ '(' :: Quoting.mask v)) := by
    rw [Quoting.mask, Quoting.maskFrom_append, hb, maskFrom_check hw hgap]
    rfl
  have hsilent := silent_of_first hmask hfirst
  have hplace : beginsWord (lastOf none (Quoting.mask u)) = true := by
    rwa [Quoting.mask, Quoting.lastOf_maskFrom hclosed]
  have hne : w ++ (gap ++ '(' :: Quoting.mask v) ≠ [] := by simp
  have hword : ∀ t : Text, w ++ (gap ++ '(' :: t) = (w ++ (gap ++ ['('])) ++ t := by simp
  have hopening : (u ++ (w ++ (gap ++ '(' :: v))).take ((u ++ (w ++ gap)).length + 1) =
      u ++ (w ++ (gap ++ ['('])) := by
    have hlength : (u ++ (w ++ gap)).length + 1 = (u ++ (w ++ (gap ++ ['(']))).length := by
      simp [Nat.add_assoc]
    rw [hword, hlength, ← List.append_assoc u (w ++ (gap ++ ['('])) v, List.take_left]
  rw [checkMark?_eq, search?, hmask, searchFrom?_silent hsilent,
    searchFrom?_of_read hplace (readCheck_append hw hgap _) hne rfl, hopening, hword,
    width_append _ (Quoting.mask v), Nat.add_sub_cancel, Nat.zero_add, Quoting.width_mask,
    ← width_append]

theorem exists_first {q : Quoting} {s : Text} {start opening : Nat}
    (h : CheckAt q s start opening) : ∃ n m, FirstCheck q s n m := by
  classical
  have hexists : ∃ n, ∃ m, CheckAt q s n m := ⟨start, opening, h⟩
  obtain ⟨m, hm⟩ := Nat.find_spec hexists
  exact ⟨Nat.find hexists, m, hm, fun n hn m hcheck => Nat.find_min hexists hn ⟨m, hcheck⟩⟩

theorem extract_append (s : Text) {a b c : Nat} (hab : a ≤ b) (hbc : b ≤ c) :
    s.extract a b ++ s.extract b c = s.extract a c := by
  have hdrop : s.drop b = (s.drop a).drop (b - a) := by
    rw [List.drop_drop, Nat.add_sub_cancel' hab]
  have hlength : c - a = (b - a) + (c - b) := by omega
  rw [List.extract_eq_take_drop, List.extract_eq_take_drop, List.extract_eq_take_drop, hdrop,
    hlength, List.take_add]

theorem extract_succ {s : Text} {n : Nat} {c : Char} (h : s[n]? = some c) :
    s.extract n (n + 1) = [c] := by
  rw [List.extract_eq_take_drop, drop_of_getElem? h, Nat.add_sub_cancel_left]
  rfl

theorem CheckAt.drop {q : Quoting} {s : Text} {start opening : Nat}
    (h : CheckAt q s start opening) : s.drop opening = '(' :: s.drop (opening + 1) :=
  drop_of_getElem? h.paren

theorem CheckAt.lt {q : Quoting} {s : Text} {start opening : Nat}
    (h : CheckAt q s start opening) : start < opening := by
  obtain ⟨u, w, gap, v, -, rfl, rfl, hw, -⟩ := h.exists_append
  have hlength : w.length = 5 := length_of_spells hw
  rw [List.length_append, List.length_append]
  omega

theorem checkClause?_of_first {s : Text} {start opening : Nat}
    (h : FirstCheck .start s start opening) : checkClause? s (Quoting.mask s) =
      (group? (s.drop (opening + 1))).map fun p => s.extract start (opening + 1) ++ p.1 ++ [')'] := by
  have hle : start ≤ opening + 1 := Nat.le_succ_of_le h.check.lt.le
  have htake : s.take (opening + 1) = s.take start ++ s.extract start (opening + 1) := by
    have hsplit := extract_append s (Nat.zero_le start) hle
    simpa only [List.extract_eq_take_drop, List.drop_zero, Nat.sub_zero] using hsplit.symm
  have hmark := checkMark?_of_first h
  rw [htake] at hmark
  have hcut := checkClause?_of_found hmark (s.drop (opening + 1))
  rwa [← List.append_assoc, ← htake, List.take_append_drop] at hcut

theorem CheckAt.extract_eq {q : Quoting} {s : Text} {start opening close : Nat}
    (h : CheckAt q s start opening) (hclose : ClosesAt s opening close)
    (hparen : s[close]? = some ')') :
    s.extract start (opening + 1) ++ s.extract (opening + 1) close ++ [')'] =
      s.extract start (close + 1) := by
  have hstart := h.lt
  have hlt : opening < close := by
    refine Nat.lt_of_le_of_ne hclose.behind.1 ?_
    rintro rfl
    rw [h.paren] at hparen
    cases hparen
  rw [← extract_succ hparen, extract_append s (by omega) (by omega),
    extract_append s (by omega) (by omega)]

/-- The check that is cut from a text: from the word of the first one to the parenthesis that closes
its group. -/
theorem checkClause?_eq_some_iff {s c : Text} : checkClause? s (Quoting.mask s) = some c ↔
    ∃ start opening close, FirstCheck .start s start opening ∧ ClosesAt s opening close ∧
      c = s.extract start (close + 1) := by
  constructor
  · intro hcut
    have hmark : checkMark? (Quoting.mask s) ≠ none := by
      intro hnone
      simp [checkClause?, hnone] at hcut
    obtain ⟨found, hfound⟩ := Option.ne_none_iff_exists'.1 hmark
    obtain ⟨mu, mv, r, hmask, hbegins, hread, -⟩ := exists_place_of_searchFrom? hfound
    obtain ⟨u, v, m, -, -, hat⟩ := exists_checkAt hmask hbegins hread
    obtain ⟨start, opening, hfirst⟩ := exists_first hat
    rw [checkClause?_of_first hfirst] at hcut
    obtain ⟨⟨inside, rest⟩, hgroup, rfl⟩ := Option.map_eq_some_iff.1 hcut
    have hclose := closesAt_of_group? hfirst.check.drop hgroup
    obtain ⟨hparen, hinside, -⟩ := places_of_group? hfirst.check.drop hgroup
    refine ⟨start, opening, _, hfirst, hclose, ?_⟩
    rw [← hfirst.check.extract_eq hclose hparen, hinside]
  · rintro ⟨start, opening, close, hfirst, hclose, rfl⟩
    obtain ⟨hparen, hgroup⟩ := hclose.group? hfirst.check.drop
    rw [checkClause?_of_first hfirst, hgroup, Option.map_some,
      hfirst.check.extract_eq hclose hparen]

theorem toLower_of_spells {k c : Char} (hk : k ∈ ['C', 'H', 'E', 'K']) (h : spells k c = true) :
    (c.toLower == k.toLower) = decide (c ≠ '\u212A') := by
  have hcapital : ∀ k ∈ ['C', 'H', 'E', 'K'], (k.toLower == k.toLower) = decide (k ≠ '\u212A') ∧
      (k.toLower.toLower == k.toLower) = decide (k.toLower ≠ '\u212A') := by decide
  simp only [spells, Bool.or_eq_true, Bool.and_eq_true, decide_eq_true_eq] at h
  rcases h with ((rfl | rfl) | ⟨rfl, -⟩) | ⟨rfl, rfl⟩
  · exact (hcapital c hk).1
  · exact (hcapital k hk).2
  · exact absurd hk (by decide)
  · decide

theorem beginsWith_of_spells {w u : Text} (hw : w ⊆ ['C', 'H', 'E', 'K']) (h : Spells w u)
    (r : Text) : beginsWith (u ++ r) w = decide ('\u212A' ∉ u) := by
  induction w generalizing u with
  | nil =>
    cases h
    cases r <;> rfl
  | cons k w ih =>
    obtain ⟨hk, hw⟩ := List.cons_subset.1 hw
    cases u with
    | nil => cases h
    | cons c u =>
      obtain ⟨hc, h⟩ := Option.ite_none_right_eq_some.1 h
      have hcons : beginsWith (c :: u ++ r) (k :: w) =
          (c.toLower == k.toLower && beginsWith (u ++ r) w) := rfl
      rw [hcons, toLower_of_spells hk hc, ih hw h, ← Bool.decide_and, decide_eq_decide,
        List.mem_cons, not_or, ne_comm]

structure Lists (q : Quoting) (tail : Text) (c : Column) (check? : Option Text) : Prop where
  constraints : c.constraints = (if c.isUnique then [("UNIQUE" : Text)] else []) ++ check?.toList
  isUnique : c.isUnique = true ↔ ("UNIQUE" : Text) ∈ c.constraints
  check : ∀ text, check? = some text ↔ ∃ start opening close,
    FirstCheck q tail start opening ∧ ClosesAt tail opening close ∧
      text = tail.extract start (close + 1)
  hasCheck : c.hasCheck = true ↔ ∃ text, check? = some text ∧ '\u212A' ∉ text.take 5

theorem beginsWith_of_checkClause? {s text : Text}
    (h : checkClause? s (Quoting.mask s) = some text) :
    beginsWith text "CHECK" = decide ('\u212A' ∉ text.take 5) := by
  obtain ⟨start, opening, close, hfirst, hclose, rfl⟩ := checkClause?_eq_some_iff.1 h
  obtain ⟨w, gap, hword, hw, -⟩ := hfirst.check.word
  have hlength : w.length = 5 := length_of_spells hw
  have hle := hclose.behind.1
  rw [← extract_append s hfirst.check.lt.le (Nat.le_succ_of_le hle), hword, List.append_assoc,
    beginsWith_of_spells (by decide) hw, ← hlength, List.take_left]

theorem suffix_of_columnHead? {s name dataType tail : Text}
    (h : columnHead? s = some (name, dataType, tail)) : tail <:+ s := by
  obtain ⟨_, _, _, hname, hblanks, htype, -⟩ := columnHead?_eq_some_iff.1 h
  exact (dataType?_subset htype).2.trans ((blanks?_suffix hblanks).trans (name?_suffix hname))

theorem lists_of_columnHead? {fragment name dataType tail : Text} {d : ColumnDeclaration}
    (hhead : columnHead? (trim fragment) = some (name, dataType, tail))
    (h : ColumnDeclaration.ofFragment? fragment = some d) :
    Lists .start tail d.column (checkClause? tail (Quoting.mask tail)) := by
  obtain ⟨d', hd', -, -, hread⟩ := exists_of_columnHead? hhead
  rw [h] at hd'
  cases hd'
  have hconstraints : d.column.constraints =
      (if hasPhrase ["UNIQUE"] (Quoting.mask tail) then [("UNIQUE" : Text)] else []) ++
        (checkClause? tail (Quoting.mask tail)).toList := by
    simp only [ColumnDeclaration.ofFragment?, hhead, Option.bind_eq_bind, Option.bind_some,
      Option.pure_def, Option.some.injEq] at h
    rw [← h]
  refine ⟨by rw [hread.isUnique, hconstraints], List.contains_iff_mem, fun _ =>
    checkClause?_eq_some_iff, ?_⟩
  rw [hread.hasCheck, Option.any_eq_true]
  refine exists_congr fun text => and_congr_right fun htext => ?_
  rw [beginsWith_of_checkClause? htext, decide_eq_true_eq]

/-- Whatever quotes stand in front of a text, they are closed and make no difference to it. -/
def Resumes (q : Quoting) (s : Text) : Prop :=
  ∀ c, s.head? = some c → q.step c = Quoting.start.step c

section
variable {q : Quoting} {s : Text} (h : Resumes q s)
include h

theorem Resumes.after_eq {u v : Text} (hs : s = u ++ v) (hne : u ≠ []) :
    q.after u = Quoting.start.after u := by
  obtain ⟨c, u, rfl⟩ := List.exists_cons_of_ne_nil hne
  have hstep : q.step c = Quoting.start.step c := h c (by rw [hs]; rfl)
  exact congrArg (Quoting.after · u) hstep

theorem Resumes.isOpen_eq (hq : q.Regular) {p : Quoting} {start opening : Nat}
    (hcheck : CheckAt p s start opening) :
    (q.after (s.take start)).isOpen = (Quoting.start.after (s.take start)).isOpen := by
  obtain ⟨u, w, gap, v, rfl, rfl, -, hw, -⟩ := hcheck.exists_append
  rw [List.take_left]
  cases u with
  | cons c u => rw [h.after_eq rfl (List.cons_ne_nil c u)]
  | nil =>
    -- At the beginning of the text it is the first letter of the word that follows both states.
    obtain ⟨c, w, rfl⟩ : ∃ c t, w = c :: t := by
      refine List.exists_cons_of_ne_nil ?_
      rintro rfl
      cases hw
    have hc : Quoting.isQuote c = false :=
      isQuote_of_isWordChar (isWordChar_of_keyword? (by decide) hw c List.mem_cons_self)
    have hstep : q.step c = .outside (Quoting.Before.next .gap c) :=
      (h c rfl).trans (Quoting.step_outside hc)
    obtain ⟨b, rfl⟩ := hq.exists_outside hc (by rw [hstep]; exact Bool.and_false _)
    rfl

theorem Resumes.checkAt_iff (hq : q.Regular) (start opening : Nat) :
    CheckAt q s start opening ↔ CheckAt .start s start opening := by
  constructor
  · intro hcheck
    exact ⟨hcheck.begins, h.isOpen_eq hq hcheck ▸ hcheck.outside, hcheck.word, hcheck.paren⟩
  · intro hcheck
    exact ⟨hcheck.begins, h.isOpen_eq hq hcheck ▸ hcheck.outside, hcheck.word, hcheck.paren⟩

theorem Resumes.firstCheck_iff (hq : q.Regular) (start opening : Nat) :
    FirstCheck q s start opening ↔ FirstCheck .start s start opening := by
  constructor
  · rintro ⟨hcheck, hfirst⟩
    refine ⟨(h.checkAt_iff hq _ _).1 hcheck, fun n hn m hm => hfirst n hn m ?_⟩
    exact (h.checkAt_iff hq _ _).2 hm
  · rintro ⟨hcheck, hfirst⟩
    refine ⟨(h.checkAt_iff hq _ _).2 hcheck, fun n hn m hm => hfirst n hn m ?_⟩
    exact (h.checkAt_iff hq _ _).1 hm

theorem Resumes.lists (hq : q.Regular) {c : Column} {check? : Option Text}
    (hlists : Lists .start s c check?) : Lists q s c check? := by
  obtain ⟨hconstraints, hunique, hcheck, hhas⟩ := hlists
  refine ⟨hconstraints, hunique, fun text => ?_, hhas⟩
  simp only [hcheck, h.firstCheck_iff hq]

end

/-- The constraints of a column that was read, with quotes followed from its first modifier on, or from
the beginning of its declaration where these are closed by then. -/
theorem lists_ofFragment? {fragment : Text} {d : ColumnDeclaration}
    (h : ColumnDeclaration.ofFragment? fragment = some d) :
    ∃ head tail check?, trim fragment = head ++ tail ∧
      columnHead? (trim fragment) = some (d.column.name, d.column.dataType, tail) ∧
      Lists .start tail d.column check? ∧
      (Resumes (Quoting.start.after head) tail →
        Lists (Quoting.start.after head) tail d.column check?) := by
  obtain ⟨⟨name, dataType, tail⟩, hhead, hd⟩ := Option.bind_eq_some_iff.1 h
  obtain ⟨head, happend⟩ := suffix_of_columnHead? hhead
  have hlists := lists_of_columnHead? hhead h
  cases hd
  refine ⟨head, tail, _, happend.symm, hhead, hlists, fun hresumes => ?_⟩
  exact hresumes.lists (Quoting.regular_after Quoting.regular_start head) hlists

theorem lists_ofFragment?_modifiers :
    let tail : Text := " UNIQUE DEFAULT 'CHECK (' check (qty IN (1, 2))"
    let check : Text := "check (qty IN (1, 2))"
    let d : ColumnDeclaration := ⟨{
      name := "qty"
      dataType := "INT"
      default? := some "'CHECK ('"
      constraints := ["UNIQUE", check] }, none⟩
    ColumnDeclaration.ofFragment? ("qty INT" ++ tail) = some d ∧
      d.column.isUnique = true ∧ d.column.hasCheck = true ∧
      Lists .start tail d.column (some check) ∧
      Lists (Quoting.start.after "qty INT") tail d.column (some check) := by
  intro tail check d
  have hd : ColumnDeclaration.ofFragment? ("qty INT" ++ tail) = some d := by decide +kernel
  have hhead : columnHead? (trim ("qty INT" ++ tail)) =
      some (("qty" : Text), ("INT" : Text), tail) := by decide +kernel
  have htrim : trim ("qty INT" ++ tail) = ("qty INT" : Text) ++ tail := by decide +kernel
  have hresumes : Resumes (Quoting.start.after "qty INT") tail := by
    intro c hc
    have hspace : c = ' ' := (Option.some.inj hc).symm
    rw [hspace]
    decide
  have hunique : d.column.isUnique = true := by decide
  obtain ⟨head, rest, check?, happend, hrest, hlists, hfrom⟩ := lists_ofFragment? hd
  have hsame := congrArg (Option.map fun p : Text × Text × Text => p.2.2) (hhead.symm.trans hrest)
  obtain rfl := Option.some.inj hsame
  obtain rfl := List.append_cancel_right (htrim.symm.trans happend)
  -- The list of the column has one check.
  have hcheck : check? = some check := by
    have hlist := hlists.constraints
    rw [if_pos hunique, List.singleton_append] at hlist
    exact Option.mem_toList.1 ((List.cons.inj hlist).2 ▸ List.mem_singleton_self check)
  subst hcheck
  exact ⟨hd, hunique, by decide, hlists, hfrom hresumes⟩

/-- A check is listed and yet not known for one if its word has the Kelvin sign. And quotes of a type
are not followed into the modifiers, so the contents of a literal may be listed. -/
theorem constraints_of_kelvin_sign :
    (ColumnDeclaration.ofFragment? "qty INT CHEC\u212A (qty > 0)").map
        (fun d => (d.column.constraints, d.column.hasCheck)) =
        some ([("CHEC\u212A (qty > 0)" : Text)], false) ∧
      (ColumnDeclaration.ofFragment? "c ENUM('a) CHECK (b)')").map (·.column.constraints) =
        some [("CHECK (b)" : Text)] ∧
      (Quoting.start.after "c ENUM('a) ").isOpen = true := by
  decide +kernel

end SchemaDiagram.Sql
