import SchemaDiagram.Xml.Character

/-!
The pieces of a document: tags, character data, and what means nothing here. Reading fails where a
piece is malformed by itself; how the pieces fit together is not looked at.
-/

set_option autoImplicit false

namespace SchemaDiagram.Xml

/-- A name with the part before the colon, which is empty where there is no colon. -/
structure QName where
  qualifier : Text
  localName : Text
  deriving DecidableEq, Repr

structure RawAttribute where
  name : QName
  value : Text
  deriving DecidableEq, Repr

inductive Markup where
  | startTag (name : QName) (attributes : List RawAttribute) (isEmpty : Bool)
  | endTag (name : QName)
  | text (content : Text)
  | literalText (content : Text)
  | remark
  deriving DecidableEq, Repr

def after? : Text → Text → Option Text
  | [], s => some s
  | _ :: _, [] => none
  | m :: mark, c :: s => if c = m then after? mark s else none

/-- The text up to a mark, all of it allowed, and what follows the mark. -/
def through? (mark : Text) : Text → Option (Text × Text)
  | [] => none
  | c :: s =>
    match after? mark (c :: s) with
    | some rest => some ([], rest)
    | none =>
      if isAllowed c then (through? mark s).map fun (inside, rest) => (c :: inside, rest) else none

def qname? (s : Text) : Option (QName × Text) :=
  let written := s.takeWhile isNameChar
  let rest := s.dropWhile isNameChar
  let name : Option QName :=
    match Text.splitAt (· = ':') written with
    | [localName] => some ⟨[], localName⟩
    | [qualifier, localName] => some ⟨qualifier, localName⟩
    | _ => none
  match name with
  | some name =>
    if name.qualifier.head?.all isNameStart && name.localName.head?.any isNameStart then
      some (name, rest)
    else none
  | none => none

def attribute? (s : Text) : Option (RawAttribute × Text) := do
  let (name, s) ← qname? s
  let s ← after? ['='] (skipSpaces s)
  match skipSpaces s with
  | [] => none
  | quote :: s =>
    if quote = '"' || quote = '\'' then do
      let (value, rest) ← through? [quote] s
      if value.contains '<' then none else some (⟨name, value⟩, rest)
    else none

theorem after?_append {m s r : Text} (h : after? m s = some r) : m ++ r = s := by
  induction m generalizing s with
  | nil => simp [after?] at h; simp [h]
  | cons c m ih =>
    cases s with
    | nil => simp [after?] at h
    | cons d s =>
      simp only [after?] at h
      split at h
      · rename_i hd
        simp [ih h, hd]
      · simp at h

theorem through?_append {m s a r : Text} (h : through? m s = some (a, r)) : a ++ m ++ r = s := by
  induction s generalizing a with
  | nil => simp [through?] at h
  | cons c s ih =>
    simp only [through?] at h
    split at h
    · rename_i rest hrest
      simp only [Option.some.injEq, Prod.mk.injEq] at h
      obtain ⟨rfl, rfl⟩ := h
      simpa using after?_append hrest
    · split at h
      · simp only [Option.map_eq_some_iff, Prod.mk.injEq] at h
        obtain ⟨⟨b, t⟩, hb, rfl, rfl⟩ := h
        simpa using ih hb
      · simp at h

theorem qname?_length {s r : Text} {n : QName} (h : qname? s = some (n, r)) :
    r.length < s.length := by
  simp only [qname?] at h
  split at h
  · rename_i name hname
    split at h
    · rename_i hparts
      simp only [Option.some.injEq, Prod.mk.injEq] at h
      obtain ⟨rfl, rfl⟩ := h
      have happ := congrArg List.length
        (List.takeWhile_append_dropWhile (p := isNameChar) (l := s))
      have hpos : 0 < (s.takeWhile isNameChar).length := by
        cases hw : s.takeWhile isNameChar with
        | cons c w => simp
        | nil =>
          rw [hw] at hname
          simp [Text.splitAt, Text.splitWith] at hname
          subst hname
          simp at hparts
      rw [List.length_append] at happ
      omega
    · simp at h
  · simp at h

theorem skipSpaces_length_le (s : Text) : (skipSpaces s).length ≤ s.length :=
  (List.dropWhile_suffix isSpace).length_le

theorem attribute?_length {s r : Text} {a : RawAttribute} (h : attribute? s = some (a, r)) :
    r.length < s.length := by
  simp only [attribute?, Option.bind_eq_bind, Option.bind_eq_some_iff] at h
  obtain ⟨⟨name, t⟩, hname, u, hu, h⟩ := h
  have h1 : t.length < s.length := qname?_length hname
  have h2 := congrArg List.length (after?_append hu)
  have h3 := skipSpaces_length_le t
  have h4 := skipSpaces_length_le u
  simp at h2
  split at h
  · simp at h
  · rename_i quote v hv
    rw [hv] at h4
    simp at h4
    split at h
    · simp only [Option.bind_eq_some_iff] at h
      obtain ⟨⟨value, rest⟩, hvalue, h⟩ := h
      split at h
      · simp at h
      · simp only [Option.some.injEq, Prod.mk.injEq] at h
        obtain ⟨-, rfl⟩ := h
        have h5 := congrArg List.length (through?_append hvalue)
        simp at h5
        omega
    · simp at h

/-- The attributes of a start tag through its end; the flag tells whether it is an empty element.
Each attribute has a space before it. -/
def attributes? (s : Text) : Option (List RawAttribute × Bool × Text) :=
  match skipSpaces s with
  | '/' :: '>' :: rest => some ([], true, rest)
  | '>' :: rest => some ([], false, rest)
  | _ =>
    if s.head?.any isSpace then
      match _h : attribute? (skipSpaces s) with
      | some (a, rest) =>
        (attributes? rest).map fun (as, isEmpty, rest) => (a :: as, isEmpty, rest)
      | none => none
    else none
termination_by s.length
decreasing_by exact Nat.lt_of_lt_of_le (attribute?_length _h) (skipSpaces_length_le s)

def comment? (s : Text) : Option Text := do
  let (inside, rest) ← through? "-->" s
  if inside.getLast? = some '-' || (inside.zip (inside.drop 1)).contains ('-', '-') then none
  else some rest

def instruction? (s : Text) : Option Text :=
  match s with
  | [] => none
  | c :: _ =>
    if isNameStart c then do
      let (_, rest) ← through? "?>" (skipSpaces (s.dropWhile isNameChar))
      some rest
    else none

def endTag? (s : Text) : Option (QName × Text) := do
  let (name, s) ← qname? s
  let rest ← after? ['>'] (skipSpaces s)
  some (name, rest)

def startTag? (s : Text) : Option (Markup × Text) := do
  let (name, s) ← qname? s
  let (attributes, isEmpty, rest) ← attributes? s
  some (.startTag name attributes isEmpty, rest)

def text? (s : Text) : Option (Markup × Text) :=
  let content := s.takeWhile (· ≠ '<')
  if content.all isAllowed && (through? "]]>" content).isNone then
    some (.text content, s.dropWhile (· ≠ '<'))
  else none

/-- The piece that begins with a given mark. A second declaration, and a document type, are
no pieces. -/
def markup? (s : Text) : Option (Markup × Text) :=
  if let some t := after? "<!--" s then (comment? t).map fun rest => (.remark, rest)
  else if let some t := after? "<![CDATA[" s then
    (through? "]]>" t).map fun (inside, rest) => (.literalText inside, rest)
  else if (after? "<?xml " s).isSome then none
  else if let some t := after? "<?" s then (instruction? t).map fun rest => (.remark, rest)
  else if let some t := after? "</" s then (endTag? t).map fun (name, rest) => (.endTag name, rest)
  else if let some t := after? ['<'] s then startTag? t
  else text? s

theorem attributes?_length {s r : Text} {as : List RawAttribute} {e : Bool}
    (h : attributes? s = some (as, e, r)) : r.length < s.length := by
  fun_induction attributes? s generalizing as e r with
  | case1 s rest heq =>
    simp only [Option.some.injEq, Prod.mk.injEq] at h
    obtain ⟨-, -, rfl⟩ := h
    have := skipSpaces_length_le s
    simp [heq] at this
    omega
  | case2 s rest heq =>
    simp only [Option.some.injEq, Prod.mk.injEq] at h
    obtain ⟨-, -, rfl⟩ := h
    have := skipSpaces_length_le s
    simp [heq] at this
    omega
  | case3 s _ a rest hattr _ _ ih =>
    simp only [Option.map_eq_some_iff, Prod.mk.injEq] at h
    obtain ⟨⟨as', e', r'⟩, hrest, -, -, rfl⟩ := h
    have h1 : r'.length < rest.length := ih hrest
    have h2 := attribute?_length hattr
    have h3 := skipSpaces_length_le s
    dsimp only
    omega
  | case4 => simp at h
  | case5 => simp at h

theorem after?_length {m s r : Text} (hm : m ≠ []) (h : after? m s = some r) :
    r.length < s.length := by
  have happ := congrArg List.length (after?_append h)
  have hpos := List.length_pos_iff.2 hm
  rw [List.length_append] at happ
  omega

theorem through?_length {m s a r : Text} (h : through? m s = some (a, r)) :
    r.length ≤ s.length := by
  have happ := congrArg List.length (through?_append h)
  simp only [List.length_append] at happ
  omega

theorem comment?_length {s r : Text} (h : comment? s = some r) : r.length ≤ s.length := by
  simp only [comment?, Option.bind_eq_bind, Option.bind_eq_some_iff] at h
  obtain ⟨⟨inside, rest⟩, hthrough, h⟩ := h
  split at h
  · simp at h
  · simp at h
    subst h
    exact through?_length hthrough

theorem instruction?_length {s r : Text} (h : instruction? s = some r) : r.length ≤ s.length := by
  unfold instruction? at h
  split at h
  · simp at h
  · rename_i c u
    split at h
    · simp only [Option.bind_eq_bind, Option.bind_eq_some_iff, Option.some.injEq] at h
      obtain ⟨⟨inside, rest⟩, hthrough, rfl⟩ := h
      exact Nat.le_trans (through?_length hthrough) (Nat.le_trans (skipSpaces_length_le _)
        (List.dropWhile_suffix isNameChar).length_le)
    · simp at h

theorem endTag?_length {s r : Text} {n : QName} (h : endTag? s = some (n, r)) :
    r.length < s.length := by
  simp only [endTag?, Option.bind_eq_bind, Option.bind_eq_some_iff, Option.some.injEq,
    Prod.mk.injEq] at h
  obtain ⟨⟨name, t⟩, hname, u, hu, -, rfl⟩ := h
  have h1 : t.length < s.length := qname?_length hname
  have h2 := after?_length (by simp) hu
  have h3 := skipSpaces_length_le t
  dsimp only at h2
  omega

theorem startTag?_length {s r : Text} {m : Markup} (h : startTag? s = some (m, r)) :
    r.length < s.length := by
  simp only [startTag?, Option.bind_eq_bind, Option.bind_eq_some_iff, Option.some.injEq,
    Prod.mk.injEq] at h
  obtain ⟨⟨name, t⟩, hname, ⟨as, e, u⟩, has, -, rfl⟩ := h
  have h1 : t.length < s.length := qname?_length hname
  have h2 : u.length < t.length := attributes?_length has
  dsimp only
  omega

theorem text?_length {c : Char} {s r : Text} {m : Markup} (hc : c ≠ '<')
    (h : text? (c :: s) = some (m, r)) : r.length < (c :: s).length := by
  simp only [text?] at h
  split at h
  · simp only [Option.some.injEq, Prod.mk.injEq] at h
    obtain ⟨-, rfl⟩ := h
    have := (List.dropWhile_suffix (fun c => decide (c ≠ '<')) (l := s)).length_le
    simp [hc] at this ⊢
    omega
  · simp at h

theorem markup?_length {s r : Text} {m : Markup} (hs : s ≠ []) (h : markup? s = some (m, r)) :
    r.length < s.length := by
  unfold markup? at h
  split at h
  · rename_i t ht
    simp only [Option.map_eq_some_iff, Prod.mk.injEq] at h
    obtain ⟨_, h, -, rfl⟩ := h
    exact Nat.lt_of_le_of_lt (comment?_length h) (after?_length (by simp) ht)
  split at h
  · rename_i t ht
    simp only [Option.map_eq_some_iff, Prod.mk.injEq] at h
    obtain ⟨⟨_, _⟩, h, -, rfl⟩ := h
    exact Nat.lt_of_le_of_lt (through?_length h) (after?_length (by simp) ht)
  split at h
  · simp at h
  split at h
  · rename_i t ht
    simp only [Option.map_eq_some_iff, Prod.mk.injEq] at h
    obtain ⟨_, h, -, rfl⟩ := h
    exact Nat.lt_of_le_of_lt (instruction?_length h) (after?_length (by simp) ht)
  split at h
  · rename_i t ht
    simp only [Option.map_eq_some_iff, Prod.mk.injEq] at h
    obtain ⟨⟨_, _⟩, h, -, rfl⟩ := h
    exact Nat.lt_trans (endTag?_length h) (after?_length (by simp) ht)
  split at h
  · rename_i t ht
    exact Nat.lt_trans (startTag?_length h) (after?_length (by simp) ht)
  rename_i hopen
  cases s with
  | nil => exact absurd rfl hs
  | cons c s => exact text?_length (fun hc => hopen s (by simp [after?, hc])) h

def markups? : Text → Option (List Markup)
  | [] => some []
  | c :: s =>
    match _h : markup? (c :: s) with
    | some (m, rest) => (markups? rest).map (m :: ·)
    | none => none
termination_by s => s.length
decreasing_by exact markup?_length (by simp) _h

end SchemaDiagram.Xml
