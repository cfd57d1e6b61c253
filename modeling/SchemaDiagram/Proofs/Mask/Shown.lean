import SchemaDiagram.Proofs.Spacing.Statement
import SchemaDiagram.Proofs.Spans

/-!
What a mask shows of a text. The lexing of the text says which characters are shown: those outside
quoted spans, and the quotes that delimit a span. Each of them stays at its byte offset, and every other
character gives as many spaces as it takes bytes (`masks_lexing`). A second mask changes nothing
(`mask_mask`).
-/

set_option autoImplicit false

namespace SchemaDiagram.Sql
open Text

/-- For each character of a span, whether it delimits the span. Of a doubled quote both do; a quote that
a backslash takes does not. -/
def SpanKind.delimits (kind : SpanKind) : Text → List Bool
  | [] => []
  | [c] => [c = kind.quote]
  | c :: d :: s =>
    if kind = .escapeLiteral ∧ c = '\\' then false :: false :: delimits kind s
    else (c = kind.quote) :: delimits kind (d :: s)

/-- For each character of a piece, whether a mask shows it. -/
def Piece.shown : Piece → List Bool
  | bare _ => [true]
  | span kind text => kind.delimits text

/-- The text `m` has as many bytes as `s`, and at its byte offset each character of `s` that is shown;
for any other character it has spaces. -/
structure Masks (shown : List Bool) (s m : Text) : Prop where
  bytes : width m = width s
  length : shown.length = s.length
  kept : ∀ u c v, s = u ++ c :: v → shown[u.length]? = some true →
    ∃ r, dropBytes? (width u) m = some (c :: r)
  blanked : ∀ u c v, s = u ++ c :: v → shown[u.length]? = some false →
    ∃ r, dropBytes? (width u) m = some (List.replicate c.utf8Size ' ' ++ r)

namespace Quoting

/-- Inside quotes, and still inside behind the character. -/
def hides (q : Quoting) (c : Char) : Bool := q.isOpen && (q.step c).isOpen

/-- For each character of a text, whether the pass shows it. -/
def shown : Quoting → Text → List Bool
  | _, [] => []
  | q, c :: s => (!q.hides c) :: shown (q.step c) s

theorem maskFrom_cons (q : Quoting) (c : Char) (s : Text) : q.maskFrom (c :: s) =
    (if q.hides c then List.replicate c.utf8Size ' ' else [c]) ++ (q.step c).maskFrom s := rfl

theorem hides_outside (b : Before) (c : Char) : (outside b).hides c = false := rfl

theorem length_shown (q : Quoting) (s : Text) : (q.shown s).length = s.length := by
  induction s generalizing q with
  | nil => rfl
  | cons c s ih => exact congrArg (· + 1) (ih (q.step c))

theorem shown_append (q : Quoting) (s t : Text) :
    q.shown (s ++ t) = q.shown s ++ (q.after s).shown t := by
  induction s generalizing q with
  | nil => rfl
  | cons c s ih => exact congrArg ((!q.hides c) :: ·) (ih (q.step c))

/-- The state at a place tells what becomes of the character there. -/
theorem getElem?_shown (q : Quoting) (u : Text) (c : Char) (v : Text) :
    (q.shown (u ++ c :: v))[u.length]? = some (!(q.after u).hides c) := by
  have hlength := q.length_shown u
  rw [shown_append, List.getElem?_append_right hlength.le, hlength, Nat.sub_self]
  rfl

theorem dropBytes?_maskFrom (q : Quoting) (u : Text) (c : Char) (v : Text) :
    ∃ r, dropBytes? (width u) (q.maskFrom (u ++ c :: v)) =
      some ((if (q.after u).hides c then List.replicate c.utf8Size ' ' else [c]) ++ r) := by
  rw [maskFrom_append, ← width_maskFrom q u]
  exact ⟨_, dropBytes?_width_append _ _⟩

theorem masks_maskFrom (q : Quoting) (s : Text) : Masks (q.shown s) s (q.maskFrom s) := by
  refine ⟨width_maskFrom q s, length_shown q s, ?_, ?_⟩
  · rintro u c v rfl hshown
    rw [getElem?_shown, Option.some.injEq, Bool.not_eq_true'] at hshown
    obtain ⟨r, hdrop⟩ := dropBytes?_maskFrom q u c v
    rw [hshown] at hdrop
    exact ⟨r, hdrop⟩
  · rintro u c v rfl hshown
    rw [getElem?_shown, Option.some.injEq, Bool.not_eq_false'] at hshown
    obtain ⟨r, hdrop⟩ := dropBytes?_maskFrom q u c v
    rw [hshown] at hdrop
    exact ⟨r, hdrop⟩

end Quoting

namespace SpanKind

theorem delimits_cons {kind : SpanKind} {c : Char} (hc : kind = escapeLiteral → c ≠ '\\') (s : Text) :
    kind.delimits (c :: s) = decide (c = kind.quote) :: kind.delimits s := by
  cases s with
  | nil => rfl
  | cons d s => exact if_neg fun h => hc h.1 h.2

theorem delimits_quote (kind : SpanKind) (s : Text) :
    kind.delimits (kind.quote :: s) = true :: kind.delimits s := by
  rw [delimits_cons fun _ => kind.quote_ne_backslash, decide_eq_true rfl]

theorem hides_inside {kind : SpanKind} {c : Char} (hc : c ≠ kind.quote) :
    kind.inside.hides c = true := by
  rw [Quoting.hides, isOpen_inside, Bool.true_and]
  cases kind with
  | name => exact congrArg Quoting.isOpen (if_neg hc)
  | plainLiteral => exact congrArg Quoting.isOpen (if_neg hc)
  | escapeLiteral =>
    have hc : c ≠ '\'' := hc
    by_cases hslash : c = '\\' <;> simp [inside, Quoting.step, Quoting.isOpen, hc, hslash]

theorem hides_quote (kind : SpanKind) : kind.inside.hides kind.quote = false := by
  rw [Quoting.hides, step_quote]
  exact Bool.and_false _

theorem Content.delimits_append {kind : SpanKind} {body : Text} (h : kind.Content body) (t : Text) :
    kind.delimits (body ++ t) = kind.delimits body ++ kind.delimits t := by
  induction h with
  | nil => rfl
  | char _ hescape _ ih =>
    rw [List.cons_append, delimits_cons hescape, delimits_cons hescape, ih]
    rfl
  | quotes _ ih =>
    rw [List.cons_append, List.cons_append, delimits_quote, delimits_quote, delimits_quote,
      delimits_quote, ih]
    rfl
  | escaped hkind _ ih =>
    subst hkind
    exact congrArg (false :: false :: ·) ih

theorem Content.shown {kind : SpanKind} {body : Text} (h : kind.Content body) :
    kind.inside.shown body = kind.delimits body := by
  induction h with
  | nil => rfl
  | char hquote hescape _ ih =>
    rw [delimits_cons hescape, Quoting.shown, step_char hquote hescape, hides_inside hquote, ih,
      decide_eq_false hquote]
    rfl
  | quotes _ ih =>
    rw [delimits_quote, delimits_quote, Quoting.shown, Quoting.shown, hides_quote, step_quote,
      step_behind, ih]
    rfl
  | escaped hkind _ ih =>
    subst hkind
    exact congrArg (false :: false :: ·) ih

theorem shown_of_unclosed {kind : SpanKind} {s : Text} (h : ∀ body rest, ¬ kind.Closes s body rest) :
    kind.inside.shown s = kind.delimits s := by
  rcases (kind.content_or_closes s).resolve_right fun ⟨body, rest, hcloses⟩ => h body rest hcloses with
    hcontent | ⟨rfl, body, rfl, hcontent⟩
  · exact hcontent.shown
  · rw [Quoting.shown_append, hcontent.coverage.2, hcontent.shown, hcontent.delimits_append]
    rfl

end SpanKind

theorem shown_behind {kind : SpanKind} {rest : Text} (h : rest.head? ≠ some kind.quote) :
    (Quoting.outside kind.behind).shown rest = (Quoting.outside .gap).shown rest := by
  cases rest with
  | nil => rfl
  | cons c rest =>
    have hc : c ≠ kind.quote := by simpa using h
    rw [Quoting.shown, Quoting.shown, step_behind_of_ne hc]
    rfl

theorem Lexing.shown {before s : Text} {ps : List Piece} (h : Lexing before s ps) :
    (Quoting.outside (Before.behind before)).shown s = ps.flatMap Piece.shown := by
  induction h with
  | done => rfl
  | bare hc _ ih =>
    rw [Quoting.shown, Quoting.step_outside (opened?_eq_none_iff.1 hc), Before.next_behind, ih]
    rfl
  | @closed before s body rest c kind ps hc hcloses _ ih =>
    obtain ⟨rfl, hcontent, hsingle⟩ := hcloses
    obtain rfl := quote_of_opened? hc
    have hafter : before ++ kind.quote :: (body ++ [kind.quote]) =
        (before ++ kind.quote :: body) ++ [kind.quote] := by simp
    rw [hafter, Before.behind_concat_quote] at ih
    rw [Quoting.shown, step_opened hc, Quoting.shown_append, hcontent.coverage.2, Quoting.shown,
      kind.step_quote, shown_behind hsingle, ih, hcontent.shown, kind.hides_quote, List.flatMap_cons,
      Piece.shown, kind.delimits_quote, hcontent.delimits_append, kind.delimits_quote]
    simp [Quoting.hides_outside, SpanKind.delimits]
  | unclosed hc hopen =>
    obtain rfl := quote_of_opened? hc
    rw [Quoting.shown, step_opened hc, SpanKind.shown_of_unclosed hopen, List.flatMap_singleton,
      Piece.shown, SpanKind.delimits_quote]
    rfl

/-- The mask of a text shows what its one lexing shows. -/
theorem masks_lexing (s : Text) : ∃ ps, (∀ qs, Lexing [] s qs ↔ qs = ps) ∧
    Masks (ps.flatMap Piece.shown) s (Quoting.mask s) := by
  obtain ⟨ps, h⟩ := exists_lexing [] s
  have hshown : Quoting.start.shown s = ps.flatMap Piece.shown := h.shown
  refine ⟨ps, fun qs => ⟨h.unique, ?_⟩, hshown ▸ Quoting.masks_maskFrom .start s⟩
  rintro rfl
  exact h

namespace Quoting

def unescaped : Quoting → Quoting
  | .escaped => .escape
  | q => q

theorem maskFrom_spaces {q : Quoting} (hq : q.Regular) (hopen : q.isOpen = true) (n : Nat) (t : Text) :
    q.unescaped.maskFrom (List.replicate n ' ' ++ t) =
      List.replicate n ' ' ++ q.unescaped.maskFrom t := by
  have hstep : q.unescaped.hides ' ' = true ∧ q.unescaped.step ' ' = q.unescaped := by
    cases q with
    | outside b => cases hopen
    | plain k =>
      have hk : ' ' ≠ k := by
        rintro rfl
        cases hq ' ' rfl
      simp [unescaped, hides, step, isOpen, hk]
    | escape => decide
    | escaped => decide
  induction n with
  | zero => rfl
  | succ n ih =>
    rw [List.replicate_succ, List.cons_append, maskFrom_cons, hstep.1, hstep.2, ih]
    rfl

/-- A character that is hidden leaves the pass where spaces leave it. -/
theorem unescaped_step_of_hides {q : Quoting} {c : Char} (h : q.hides c = true) :
    (q.step c).unescaped = q.unescaped := by
  cases q with
  | outside b => cases h
  | plain k =>
    have hk : c ≠ k := by
      rintro rfl
      simp [hides, step, isOpen] at h
    simp [step, hk]
  | escape =>
    have hquote : c ≠ '\'' := by
      rintro rfl
      cases h
    by_cases hslash : c = '\\' <;> simp [step, unescaped, hslash, hquote]
  | escaped => rfl

theorem unescaped_step_of_shown {q : Quoting} {c : Char} (h : q.hides c = false) :
    q.unescaped = q ∧ (q.step c).unescaped = q.step c := by
  cases q with
  | outside b =>
    refine ⟨rfl, ?_⟩
    rw [step]
    split <;> [split; split] <;> rfl
  | plain k =>
    refine ⟨rfl, ?_⟩
    rw [step]
    split <;> rfl
  | escape =>
    have hslash : c ≠ '\\' := by
      rintro rfl
      cases h
    refine ⟨rfl, ?_⟩
    rw [step, if_neg hslash]
    split <;> rfl
  | escaped => cases h

theorem maskFrom_maskFrom {q : Quoting} (hq : q.Regular) (s : Text) :
    q.unescaped.maskFrom (q.maskFrom s) = q.maskFrom s := by
  induction s generalizing q with
  | nil => rfl
  | cons c s ih =>
    have hih := ih (hq.step c)
    rw [maskFrom_cons]
    cases hhides : q.hides c with
    | true =>
      have hopen : q.isOpen = true := (Bool.and_eq_true_iff.1 hhides).1
      rw [unescaped_step_of_hides hhides] at hih
      rw [if_pos rfl, maskFrom_spaces hq hopen, hih]
    | false =>
      obtain ⟨hsame, hstep⟩ := unescaped_step_of_shown hhides
      rw [hstep] at hih
      rw [if_neg Bool.false_ne_true, List.singleton_append, hsame, maskFrom_cons, hhides, hih]
      rfl

theorem mask_mask (s : Text) : mask (mask s) = mask s := maskFrom_maskFrom regular_start s

end Quoting

end SchemaDiagram.Sql
