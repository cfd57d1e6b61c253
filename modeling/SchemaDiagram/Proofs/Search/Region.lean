import SchemaDiagram.Proofs.Cut.Unclosed
import SchemaDiagram.Proofs.Search.Finding

/-!
The regions that the statements of a text own. Where a list closes is said by counting parentheses
outside quotes (`ClosesAt`), and the scan that looks for the place stops there (`ClosesAt.group?`).
A text has one list of regions, and its statements are read off it (`occurrences_of_regions`).
-/

set_option autoImplicit false

namespace SchemaDiagram.Sql
open Text Unicode

theorem drop_of_getElem? {s : Text} {n : Nat} {c : Char} (h : s[n]? = some c) :
    s.drop n = c :: s.drop (n + 1) := by
  obtain ⟨hlt, hc⟩ := List.getElem?_eq_some_iff.1 h
  rw [List.drop_eq_getElem_cons hlt, hc]

def Quoting.unquoted : Quoting → Text → Text
  | _, [] => []
  | q, c :: s => if q.covers c then unquoted (q.step c) s else c :: unquoted (q.step c) s

theorem Quoting.unquoted_append (q : Quoting) (s t : Text) :
    q.unquoted (s ++ t) = q.unquoted s ++ (q.after s).unquoted t := by
  induction s generalizing q with
  | nil => rfl
  | cons c s ih =>
    have hafter : q.after (c :: s) = (q.step c).after s := rfl
    rw [List.cons_append, unquoted, unquoted, ih, hafter]
    split
    · rfl
    · rfl

/-- How many more groups are opened than closed outside quotes. -/
def openGroups (q : Quoting) (s : Text) : Int :=
  (q.unquoted s).count '(' - (q.unquoted s).count ')'

theorem openGroups_append (q : Quoting) (s t : Text) :
    openGroups q (s ++ t) = openGroups q s + openGroups (q.after s) t := by
  simp only [openGroups, Quoting.unquoted_append, List.count_append]
  omega

theorem openGroups_open {q : Quoting} (hq : q.covers '(' = false) : openGroups q ['('] = 1 := by
  simp [openGroups, Quoting.unquoted, hq]

theorem openGroups_close {q : Quoting} (hq : q.covers ')' = false) : openGroups q [')'] = -1 := by
  simp [openGroups, Quoting.unquoted, hq]

theorem openGroups_other {q : Quoting} {c : Char} (h : q.covers c = true ∨ c ≠ '(' ∧ c ≠ ')') :
    openGroups q [c] = 0 := by
  by_cases hc : q.covers c = true
  · simp [openGroups, Quoting.unquoted, hc]
  · obtain ⟨hopen, hclose⟩ := h.resolve_left hc
    simp [openGroups, Quoting.unquoted, hc, hopen, hclose]

namespace Nesting

def clamps (n : Nesting) (c : Char) : Bool := !n.quoting.covers c && c = ')' && n.depth = 0

theorem clamps_of_deep {n : Nesting} (hdepth : 1 ≤ n.depth) (c : Char) : n.clamps c = false := by
  have hne : n.depth ≠ 0 := by omega
  simp [clamps, hne]

theorem depth_step {n : Nesting} {c : Char} (hc : n.clamps c = false) :
    ((n.step c).depth : Int) = n.depth + openGroups n.quoting [c] := by
  simp only [step]
  split
  · rename_i hcovers
    rw [openGroups_other (.inl hcovers), Int.add_zero]
  rename_i hcovers
  have hcovers : n.quoting.covers c = false := by simpa using hcovers
  split
  · rename_i hopen
    subst hopen
    rw [openGroups_open hcovers, Int.natCast_succ]
  rename_i hopen
  split
  · rename_i hclose
    subst hclose
    have hdepth : n.depth ≠ 0 := by simpa [clamps, hcovers] using hc
    rw [openGroups_close hcovers]
    omega
  · rename_i hclose
    rw [openGroups_other (.inr ⟨hopen, hclose⟩), Int.add_zero]

/-- As long as every parenthesis that closes has a partner, the scan counts the groups. -/
theorem depth_foldl {n : Nesting} {s : Text} (hs : Quiet step clamps n s) :
    ((s.foldl step n).depth : Int) = n.depth + openGroups n.quoting s := by
  induction s generalizing n with
  | nil => simp [openGroups, Quoting.unquoted]
  | cons c s ih =>
    have hcons : openGroups n.quoting (c :: s) =
        openGroups n.quoting [c] + openGroups (n.step c).quoting s :=
      openGroups_append n.quoting [c] s
    rw [List.foldl_cons, ih hs.2, depth_step hs.1, hcons, Int.add_assoc]

theorem quiet_clamps_of_closes {n : Nesting} {s : Text} (hs : Quiet step closes n s)
    (hdepth : 1 ≤ n.depth) : Quiet step clamps n s := by
  induction s generalizing n with
  | nil => trivial
  | cons c s ih => exact ⟨clamps_of_deep hdepth c, ih hs.2 (step_deeper hdepth hs.1 0).1⟩

end Nesting

theorem openGroups_of_quiet {s : Text} (hs : Quiet Nesting.step Nesting.closes .opened s) :
    0 ≤ openGroups .start s := by
  have hdepth := (Nesting.foldl_deeper hs (Nat.le_refl 1) 0).1
  have hcount := Nesting.depth_foldl (Nesting.quiet_clamps_of_closes hs (Nat.le_refl 1))
  simp only [Nesting.opened] at hdepth hcount
  omega

theorem quiet_take {stop : Nesting → Char → Bool} {n : Nesting} {s : Text}
    (hs : Quiet Nesting.step stop n s) (k : Nat) : Quiet Nesting.step stop n (s.take k) := by
  rw [← List.take_append_drop k s, quiet_append] at hs
  exact hs.1

theorem openGroups_of_group? {s inside rest : Text} (h : group? s = some (inside, rest)) :
    openGroups .start (inside ++ [')']) = -1 ∧
      ∀ k ≤ inside.length, 0 ≤ openGroups .start (s.take k) := by
  have hspan := exists_of_group? h
  have hquiet := quiet_of_spanWith hspan
  constructor
  · have hstop := stop_of_spanWith hspan
    simp only [Nesting.closes, Bool.and_eq_true, Bool.not_eq_true', decide_eq_true_eq] at hstop
    obtain ⟨⟨hcovers, -⟩, hdepth⟩ := hstop
    rw [Nesting.quoting_foldl] at hcovers
    have hlast : openGroups (Quoting.start.after inside) [')'] = -1 := openGroups_close hcovers
    have hcount : ((inside.foldl Nesting.step .opened).depth : Int) = 1 + openGroups .start inside :=
      Nesting.depth_foldl (Nesting.quiet_clamps_of_closes hquiet (Nat.le_refl 1))
    rw [openGroups_append, hlast]
    omega
  · intro k hk
    rw [group?_eq_append h, List.take_append_of_le_length hk]
    exact openGroups_of_quiet (quiet_take hquiet k)

theorem quiet_of_group?_none {s : Text} (h : group? s = none) :
    Quiet Nesting.step Nesting.closes .opened s := by
  have happend := spanWith_append Nesting.step Nesting.closes .opened s
  unfold group? at h
  split at h
  · cases h
  · rename_i inside hspan
    rw [hspan, List.append_nil] at happend
    exact happend ▸ quiet_of_spanWith hspan

theorem openGroups_of_group?_none {s : Text} (h : group? s = none) (k : Nat) :
    0 ≤ openGroups .start (s.take k) :=
  openGroups_of_quiet (quiet_take (quiet_of_group?_none h) k)

def depthAt (s : Text) (opening m : Nat) : Int := openGroups .start (s.extract opening (m + 1))

/-- The first place from the opening parenthesis on behind which the depth is zero again. -/
structure ClosesAt (s : Text) (opening close : Nat) : Prop where
  behind : opening ≤ close ∧ close < s.length
  zero : depthAt s opening close = 0
  first : ∀ m, opening ≤ m → m < close → depthAt s opening m ≠ 0

theorem ClosesAt.unique {s : Text} {opening close close' : Nat} (h : ClosesAt s opening close)
    (h' : ClosesAt s opening close') : close = close' := by
  rcases Nat.lt_trichotomy close close' with hlt | heq | hlt
  · exact absurd h.zero (h'.first close h.behind.1 hlt)
  · exact heq
  · exact absurd h'.zero (h.first close' h'.behind.1 hlt)

section
variable {s r : Text} {opening : Nat}

theorem depthAt_add (h : s.drop opening = '(' :: r) (k : Nat) :
    depthAt s opening (opening + k) = 1 + openGroups .start (r.take k) := by
  have hextract : s.extract opening (opening + k + 1) = ['('] ++ r.take k := by
    rw [List.extract_eq_take_drop, h, Nat.add_assoc, Nat.add_sub_cancel_left, List.take_succ_cons]
    rfl
  rw [depthAt, hextract, openGroups_append]
  rfl

theorem closesAt_of_group? (h : s.drop opening = '(' :: r) {inside rest : Text}
    (hgroup : group? r = some (inside, rest)) :
    ClosesAt s opening (opening + (inside.length + 1)) := by
  obtain ⟨hclose, hopen⟩ := openGroups_of_group? hgroup
  have hr := group?_eq_append hgroup
  have hlength := congrArg List.length h
  refine ⟨⟨Nat.le_add_right _ _, ?_⟩, ?_, ?_⟩
  · rw [hr] at hlength
    simp only [List.length_drop, List.length_cons, List.length_append] at hlength
    omega
  · have htake : r.take (inside.length + 1) = inside ++ [')'] := by
      rw [hr, List.take_length_add_append]
      rfl
    rw [depthAt_add h, htake, hclose]
    rfl
  · intro m hm hlt
    obtain ⟨k, rfl⟩ := Nat.exists_eq_add_of_le hm
    have hcount := hopen k (by omega)
    rw [depthAt_add h]
    omega

theorem places_of_group? (h : s.drop opening = '(' :: r) {inside rest : Text}
    (hgroup : group? r = some (inside, rest)) :
    s[opening + (inside.length + 1)]? = some ')' ∧
      s.extract (opening + 1) (opening + (inside.length + 1)) = inside ∧
      s.drop (opening + (inside.length + 1) + 1) = rest := by
  have hr := group?_eq_append hgroup
  have hinside : s.drop (opening + 1) = inside ++ ')' :: rest := by
    rw [← List.drop_drop, h, ← hr]
    rfl
  have hclose : s.drop (opening + (inside.length + 1)) = ')' :: rest := by
    rw [Nat.add_comm inside.length 1, ← Nat.add_assoc, ← List.drop_drop, hinside, List.drop_left]
  refine ⟨?_, ?_, ?_⟩
  · rw [← List.head?_drop, hclose]
    rfl
  · have hlength : opening + (inside.length + 1) - (opening + 1) = inside.length := by omega
    rw [List.extract_eq_take_drop, hinside, hlength, List.take_left]
  · rw [← List.drop_drop, hclose]
    rfl

theorem ClosesAt.group? (h : s.drop opening = '(' :: r) {close : Nat}
    (hclose : ClosesAt s opening close) : s[close]? = some ')' ∧
      group? r = some (s.extract (opening + 1) close, s.drop (close + 1)) := by
  cases hgroup : Sql.group? r with
  | none =>
    obtain ⟨k, rfl⟩ := Nat.exists_eq_add_of_le hclose.behind.1
    have hzero := hclose.zero
    have hcount := openGroups_of_group?_none hgroup k
    rw [depthAt_add h] at hzero
    omega
  | some g =>
    obtain ⟨hparen, hinside, hrest⟩ := places_of_group? h hgroup
    rw [hclose.unique (closesAt_of_group? h hgroup)]
    exact ⟨hparen, by rw [hinside, hrest]⟩

end

def EndsHere (rest : Text) : Prop :=
  ∃ blanks, (∀ c ∈ blanks, isBlank c = true) ∧
    (rest = blanks ∨ ∃ more, rest = blanks ++ ';' :: more)

theorem endsStatement_iff (rest : Text) : endsStatement rest = true ↔ EndsHere rest := by
  constructor
  · intro hends
    refine ⟨rest.takeWhile isBlank, fun c hc => List.mem_takeWhile_imp hc, ?_⟩
    have happend := List.takeWhile_append_dropWhile (p := isBlank) (l := rest)
    unfold endsStatement at hends
    split at hends
    · rename_i hnil
      rw [trimStart] at hnil
      rw [hnil, List.append_nil] at happend
      exact .inl happend.symm
    · rename_i c more hcons
      rw [trimStart] at hcons
      rw [hcons, of_decide_eq_true hends] at happend
      exact .inr ⟨more, happend.symm⟩
  · rintro ⟨blanks, hblanks, rfl | ⟨more, rfl⟩⟩
    · rw [endsStatement, trimStart, List.dropWhile_eq_nil_iff.2 hblanks]
    · rw [endsStatement, trimStart, List.dropWhile_append_of_pos hblanks]
      rfl

namespace StatementKind
variable {η α : Type} (kind : StatementKind η α)

/-- A header begins at a place of the text and ends with the opening parenthesis. -/
structure HeaderAt (s : Text) (n : Nat) (header : η) (opening : Nat) : Prop where
  read : kind.headerAfter? (lastOf none (s.take n)) (s.drop n) = some (header, s.drop (opening + 1))
  paren : s[opening]? = some '('

/-- What a header owns. A statement reaches up to the parenthesis that closes its list, provided
that it may end there; otherwise there is only the header. -/
inductive Owns (ends : Text → Prop) (content : η → Text → α) (s : Text) : Finding α → Prop
  | complete {start opening close : Nat} {header : η}
      (hheader : kind.HeaderAt s start header opening) (hclose : ClosesAt s opening close)
      (hparen : s[close]? = some ')') (hends : ends (s.drop (close + 1))) :
      Owns ends content s
        ⟨start, close + 1, .complete (content header (s.extract (opening + 1) close))⟩
  | unterminated {start opening : Nat} {header : η}
      (hheader : kind.HeaderAt s start header opening)
      (hopen : ∀ close, ClosesAt s opening close → ¬ ends (s.drop (close + 1))) :
      Owns ends content s ⟨start, opening + 1, .unterminated (s.extract start (opening + 1))⟩

/-- The regions of a text, in order and apart from each other. No header begins between them. -/
structure Regions (ends : Text → Prop) (content : η → Text → α) (s : Text)
    (regions : List (Finding α)) : Prop where
  owned : ∀ f ∈ regions, kind.Owns ends content s f ∧ f.start < f.stop ∧ f.stop ≤ s.length
  apart : regions.Pairwise fun f g => f.stop ≤ g.start
  between : ∀ n, (∀ f ∈ regions, ¬ (f.start ≤ n ∧ n < f.stop)) →
    ∀ header opening, ¬ kind.HeaderAt s n header opening

section
variable {kind} {ends : Text → Prop} {s : Text} {n opening : Nat} {header : η} {f : Finding α}

theorem HeaderAt.drop (h : kind.HeaderAt s n header opening) :
    s.drop opening = '(' :: s.drop (opening + 1) := drop_of_getElem? h.paren

theorem HeaderAt.findingAt?_complete (h : kind.HeaderAt s n header opening) {close : Nat}
    (hclose : ClosesAt s opening close) (hends : kind.ends (s.drop (close + 1)) = true) :
    kind.findingAt? s n =
      some ⟨n, close + 1, .complete (kind.content header (s.extract (opening + 1) close))⟩ := by
  have hlist : kind.list? (s.drop (opening + 1)) =
      some (s.extract (opening + 1) close, s.drop (close + 1)) :=
    Option.filter_eq_some_iff.2 ⟨(hclose.group? h.drop).2, hends⟩
  have hstop : s.length - (s.drop (close + 1)).length = close + 1 := by
    have hlt := hclose.behind.2
    rw [List.length_drop]
    omega
  simp only [findingAt?, h.read, hlist, hstop]

theorem HeaderAt.findingAt?_unterminated (h : kind.HeaderAt s n header opening)
    (hopen : ∀ close, ClosesAt s opening close → kind.ends (s.drop (close + 1)) = false) :
    kind.findingAt? s n = some ⟨n, opening + 1, .unterminated (s.extract n (opening + 1))⟩ := by
  have hlist : kind.list? (s.drop (opening + 1)) = none := by
    refine Option.filter_eq_none_iff.2 ?_
    rintro ⟨inside, rest⟩ hgroup
    have hends := hopen _ (closesAt_of_group? h.drop hgroup)
    rw [(places_of_group? h.drop hgroup).2.2] at hends
    simp [hends]
  have hlt := (List.getElem?_eq_some_iff.1 h.paren).1
  have hstop : s.length - (s.drop (opening + 1)).length = opening + 1 := by
    rw [List.length_drop]
    omega
  have hheader : (s.drop n).length - (s.drop (opening + 1)).length = opening + 1 - n := by
    rw [List.length_drop, List.length_drop]
    omega
  simp only [findingAt?, h.read, hlist, hstop, hheader, List.extract_eq_take_drop]

/-- Every header owns something. -/
theorem HeaderAt.exists_owns (h : kind.HeaderAt s n header opening) (ends : Text → Prop)
    (content : η → Text → α) : ∃ f, f.start = n ∧ kind.Owns ends content s f := by
  by_cases hclosed : ∃ close, ClosesAt s opening close ∧ ends (s.drop (close + 1))
  · obtain ⟨close, hclose, hrest⟩ := hclosed
    exact ⟨_, rfl, .complete h hclose (hclose.group? h.drop).1 hrest⟩
  · exact ⟨_, rfl, .unterminated h fun close hclose hrest => hclosed ⟨close, hclose, hrest⟩⟩

section
variable (hends : ∀ rest, kind.ends rest = true ↔ ends rest)
include hends

theorem Owns.findingAt? (h : kind.Owns ends kind.content s f) :
    kind.findingAt? s f.start = some f := by
  cases h with
  | complete hheader hclose hparen hrest =>
    exact hheader.findingAt?_complete hclose ((hends _).2 hrest)
  | unterminated hheader hopen =>
    refine hheader.findingAt?_unterminated fun close hclose => ?_
    exact Bool.eq_false_iff.2 (mt (hends _).1 (hopen close hclose))

end

section
variable (hparen : ∀ {s r : Text} {h : η}, kind.header? s = some (h, r) → '(' :: r <:+ s)
include hparen

theorem exists_headerAt (h : kind.findingAt? s n = some f) :
    ∃ header opening, kind.HeaderAt s n header opening := by
  obtain ⟨hbegins, hheader⟩ := header_of_findingAt? h
  obtain ⟨⟨header, r⟩, hread⟩ := Option.ne_none_iff_exists'.1 hheader
  obtain ⟨lead, hlead⟩ := (hparen hread).trans (List.drop_suffix n s)
  have hdrop : s.drop lead.length = '(' :: r := by rw [← hlead, List.drop_left]
  have hrest : s.drop (lead.length + 1) = r := by
    rw [← List.drop_drop, hdrop]
    rfl
  refine ⟨header, lead.length, ?_, ?_⟩
  · rw [headerAfter?, if_pos hbegins, hread, hrest]
  · rw [← List.head?_drop, hdrop]
    rfl

variable (hends : ∀ rest, kind.ends rest = true ↔ ends rest)
include hends

theorem regions_iff {regions : List (Finding α)} :
    kind.Regions ends kind.content s regions ↔ regions = kind.findings s := by
  have hfound : ∀ {n f}, kind.findingAt? s n = some f → kind.Owns ends kind.content s f := by
    intro n f hat
    obtain ⟨header, opening, hheader⟩ := exists_headerAt hparen hat
    obtain ⟨g, rfl, howns⟩ := hheader.exists_owns ends kind.content
    rw [howns.findingAt? hends] at hat
    cases hat
    exact howns
  constructor
  · intro h
    have hat : ∀ f ∈ regions, 0 ≤ f.start ∧ kind.findingAt? s f.start = some f :=
      fun f hf => ⟨Nat.zero_le _, (h.owned f hf).1.findingAt? hends⟩
    refine eq_findingsFrom hat h.apart fun m _ hfree => ?_
    refine Option.eq_none_iff_forall_ne_some.2 fun f hat => ?_
    obtain ⟨header, opening, hheader⟩ := exists_headerAt hparen hat
    exact h.between m hfree header opening hheader
  · rintro rfl
    refine ⟨?_, pairwise_findingsFrom s 0, ?_⟩
    · intro f hf
      have hat := (of_mem_findingsFrom hf).2
      exact ⟨hfound hat, stop_of_findingAt? hat⟩
    · intro n hfree header opening hheader
      obtain ⟨f, rfl, howns⟩ := hheader.exists_owns ends kind.content
      have hat := howns.findingAt? hends
      rcases mem_findingsFrom_or_hides (Nat.zero_le _) hat with hf | ⟨g, hg, hbefore, hbehind⟩
      · exact hfree f hf ⟨Nat.le_refl _, (stop_of_findingAt? hat).1⟩
      · exact hfree g hg ⟨Nat.le_of_lt hbefore, hbehind⟩

theorem occurrences_eq_iff {os : List (Occurrence α)} : kind.occurrences s = os ↔
      ∃ regions, kind.Regions ends kind.content s regions ∧ regions.map (·.occurrence) = os := by
  simp only [regions_iff hparen hends, exists_eq_left, map_occurrence_findings hparen]

end

end

end StatementKind

/-- The declarations of a text are what its regions own. A table may only end with a semicolon or
with the text, an index anywhere. -/
theorem occurrences_of_regions (s : Text) :
    (∀ os, tableOccurrences s = os ↔ ∃ regions, tableStatements.Regions EndsHere
      (fun name inside => ⟨normalizeName name, trim inside⟩) s regions ∧
        regions.map (·.occurrence) = os) ∧
    (∀ os, indexOccurrences s = os ↔ ∃ regions, indexStatements.Regions (fun _ => True)
      (fun header inside =>
        ⟨header.name.map normalizeName, normalizeName header.table, collapse inside⟩) s regions ∧
        regions.map (·.occurrence) = os) := by
  constructor
  · exact fun os => StatementKind.occurrences_eq_iff tableHeader?_paren endsStatement_iff
  · have hends : ∀ rest, indexStatements.ends rest = true ↔ True := fun _ => iff_of_true rfl trivial
    exact fun os => StatementKind.occurrences_eq_iff indexHeader?_paren hends

end SchemaDiagram.Sql
