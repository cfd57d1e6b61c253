import SchemaDiagram.Sql.Identifier

set_option autoImplicit false

namespace SchemaDiagram.Sql
open Unicode

def firstOf : List (Text → Option Text) → Text → Option Text
  | [], _ => none
  | r :: rs, s => r s <|> firstOf rs s

/-- Reads `CREATE TABLE name (`, with the qualifications that a table may have. -/
def tableHeader? (s : Text) : Option (Text × Text) := do
  let s ← clause? ["CREATE"] s
  let s := optional (firstOf [clause? ["GLOBAL"], clause? ["LOCAL"]]) s
  let s := optional (firstOf [clause? ["TEMP"], clause? ["TEMPORARY"], clause? ["UNLOGGED"]]) s
  let s ← clause? ["TABLE"] s
  let (name, s) ← qualifiedName? (optional (clause? ["IF", "NOT", "EXISTS"]) s)
  let rest ← mark? '(' (skipBlanks s)
  pure (name.text, rest)

def usingMethod? (s : Text) : Option Text := do
  let s ← clause? ["USING"] s
  let rest := s.dropWhile isWordChar
  if rest.length < s.length then mark? '(' (skipBlanks rest) else none

def indexList? (s : Text) : Option Text :=
  let s := skipBlanks s
  usingMethod? s <|> mark? '(' s

/-- A bare name that runs into `USING` ends where that word begins; of several such places the
last one counts. -/
def fusedMethod? : Text → Text → Option (Text × Text)
  | [], _ => none
  | c :: name, rest =>
    match fusedMethod? name rest with
    | some (before, rest) => some (c :: before, rest)
    | none => (usingMethod? (name ++ rest)).map fun rest => ([c], rest)

def indexTarget? (s : Text) : Option (Text × Text) := do
  let (name, rest) ← qualifiedName? s
  match indexList? rest with
  | some rest => pure (name.text, rest)
  | none =>
    if name.last.head? = some '"' then none
    else do
      let (last, rest) ← fusedMethod? name.last rest
      pure (name.lead ++ last, rest)

/-- Reads `ON table (`; the word `ONLY` may stand before the table, or be the table. -/
def onTable? (s : Text) : Option (Text × Text) := do
  let s ← clause? ["ON"] s
  (do indexTarget? (← clause? ["ONLY"] s)) <|> indexTarget? s

structure IndexHeader where
  name : Option Text
  table : Text
  deriving DecidableEq, Repr

/-- Reads `CREATE INDEX name ON table (`. The name may be missing, even where the word `ON` could
be one, so the reading with a name is tried first. -/
def indexHeader? (s : Text) : Option (IndexHeader × Text) := do
  let s ← clause? ["CREATE", "INDEX"] s
  let s := optional (clause? ["IF", "NOT", "EXISTS"]) (optional (clause? ["CONCURRENTLY"]) s)
  let named := do
    let (name, s) ← name? s
    let (table, rest) ← onTable? (← blanks? s)
    pure (⟨some name, table⟩, rest)
  named <|> (onTable? s).map fun (table, rest) => (⟨none, table⟩, rest)

theorem clause?_length {w : Text} {ws : List Text} {s r : Text} (hw : w ≠ [])
    (h : clause? (w :: ws) s = some r) : r.length < s.length := by
  simp only [clause?, Option.bind_eq_bind, Option.bind_eq_some_iff] at h
  obtain ⟨t, ht, u, hu, hr⟩ := h
  have h1 := (keyword?_suffix ht).2
  have h2 := (blanks?_suffix hu).length_le
  have h3 := (clause?_suffix hr).length_le
  have h4 : 0 < w.length := List.length_pos_iff.2 hw
  omega

theorem firstOf_suffix {rs : List (Text → Option Text)}
    (hrs : ∀ read ∈ rs, ∀ s r, read s = some r → r <:+ s) (s r : Text)
    (h : firstOf rs s = some r) : r <:+ s := by
  induction rs with
  | nil => simp [firstOf] at h
  | cons read rs ih =>
    simp only [firstOf, Option.orElse_eq_orElse, Option.orElse_eq_or, Option.or_eq_some_iff] at h
    rcases h with h | ⟨-, h⟩
    · exact hrs read (by simp) s r h
    · exact ih (fun read hr => hrs read (by simp [hr])) h

theorem usingMethod?_suffix {s r : Text} (h : usingMethod? s = some r) : r <:+ s := by
  simp only [usingMethod?, Option.bind_eq_bind, Option.bind_eq_some_iff] at h
  obtain ⟨t, ht, h⟩ := h
  split at h
  · exact (((mark?_suffix h).trans (skipBlanks_suffix _)).trans
      (List.dropWhile_suffix _)).trans (clause?_suffix ht)
  · simp at h

theorem indexList?_suffix {s r : Text} (h : indexList? s = some r) : r <:+ s := by
  simp only [indexList?, Option.orElse_eq_orElse, Option.orElse_eq_or, Option.or_eq_some_iff] at h
  rcases h with h | ⟨-, h⟩
  · exact (usingMethod?_suffix h).trans (skipBlanks_suffix s)
  · exact (mark?_suffix h).trans (skipBlanks_suffix s)

theorem tableHeader?_length {s n r : Text} (h : tableHeader? s = some (n, r)) :
    r.length < s.length := by
  simp only [tableHeader?, Option.bind_eq_bind, Option.bind_eq_some_iff, Option.pure_def,
    Option.some.injEq, Prod.mk.injEq] at h
  obtain ⟨s1, h1, s2, h2, ⟨q, s3⟩, h3, s4, h4, -, rfl⟩ := h
  have l1 := clause?_length (by simp) h1
  have l2 := (clause?_suffix h2).length_le
  have l3 := (qualifiedName?_suffix h3).length_le
  have l4 := ((mark?_suffix h4).trans (skipBlanks_suffix s3)).length_le
  have one (ws : List (List Text)) (s : Text) :
      (optional (firstOf (ws.map clause?)) s).length ≤ s.length :=
    (optional_suffix (firstOf_suffix (by
      intro read hread s r h
      obtain ⟨w, -, rfl⟩ := List.mem_map.1 hread
      exact clause?_suffix h)) s).length_le
  have o1 := one [["GLOBAL"], ["LOCAL"]] s1
  have o2 := one [["TEMP"], ["TEMPORARY"], ["UNLOGGED"]]
    (optional (firstOf [clause? ["GLOBAL"], clause? ["LOCAL"]]) s1)
  have o3 := (optional_suffix (fun _ _ h => @clause?_suffix ["IF", "NOT", "EXISTS"] _ _ h)
    s2).length_le
  simp only [List.map_cons, List.map_nil] at o1 o2
  omega

theorem fusedMethod?_length {n s b r : Text} (h : fusedMethod? n s = some (b, r)) :
    r.length ≤ n.length + s.length := by
  induction n generalizing b with
  | nil => simp [fusedMethod?] at h
  | cons c n ih =>
    simp only [fusedMethod?] at h
    split at h
    · rename_i before rest hf
      simp only [Option.some.injEq, Prod.mk.injEq] at h
      obtain ⟨-, rfl⟩ := h
      have := ih hf
      simp
      omega
    · simp only [Option.map_eq_some_iff, Prod.mk.injEq] at h
      obtain ⟨t, ht, -, rfl⟩ := h
      have := (usingMethod?_suffix ht).length_le
      simp at this ⊢
      omega

theorem indexTarget?_length {s n r : Text} (h : indexTarget? s = some (n, r)) :
    r.length ≤ s.length := by
  simp only [indexTarget?, Option.bind_eq_bind, Option.bind_eq_some_iff] at h
  obtain ⟨⟨name, rest⟩, hname, h⟩ := h
  have hlen := congrArg List.length (qualifiedName?_append hname)
  simp [QualifiedName.text] at hlen
  split at h
  · rename_i rest' hlist
    simp only [Option.pure_def, Option.some.injEq, Prod.mk.injEq] at h
    obtain ⟨-, rfl⟩ := h
    have : rest'.length ≤ rest.length := (indexList?_suffix hlist).length_le
    omega
  · split at h
    · simp at h
    · simp only [Option.bind_eq_some_iff, Option.pure_def, Option.some.injEq,
        Prod.mk.injEq] at h
      obtain ⟨⟨last, rest'⟩, hfused, -, rfl⟩ := h
      have : rest'.length ≤ name.last.length + rest.length := fusedMethod?_length hfused
      dsimp only
      omega

theorem onTable?_length {s n r : Text} (h : onTable? s = some (n, r)) : r.length ≤ s.length := by
  simp only [onTable?, Option.bind_eq_bind, Option.bind_eq_some_iff, Option.orElse_eq_orElse,
    Option.orElse_eq_or, Option.or_eq_some_iff] at h
  obtain ⟨t, ht, h⟩ := h
  have h1 := (clause?_suffix ht).length_le
  rcases h with ⟨u, hu, h⟩ | ⟨-, h⟩
  · have h2 := (clause?_suffix hu).length_le
    have h3 := indexTarget?_length h
    omega
  · have h3 := indexTarget?_length h
    omega

theorem indexHeader?_length {s r : Text} {n : IndexHeader} (h : indexHeader? s = some (n, r)) :
    r.length < s.length := by
  simp only [indexHeader?, Option.bind_eq_bind, Option.bind_eq_some_iff] at h
  obtain ⟨t, ht, h⟩ := h
  have h1 := clause?_length (by simp) ht
  have o1 := (optional_suffix (fun _ _ h => @clause?_suffix ["CONCURRENTLY"] _ _ h) t).length_le
  have o2 := (optional_suffix (fun _ _ h => @clause?_suffix ["IF", "NOT", "EXISTS"] _ _ h)
    (optional (clause? ["CONCURRENTLY"]) t)).length_le
  simp only [Option.orElse_eq_orElse, Option.orElse_eq_or, Option.or_eq_some_iff,
    Option.bind_eq_some_iff, Option.map_eq_some_iff, Option.pure_def, Option.some.injEq,
    Prod.mk.injEq] at h
  rcases h with ⟨⟨name, u⟩, hu, v, hv, ⟨table, w⟩, hw, -, rfl⟩ | ⟨-, ⟨table, w⟩, hw, -, rfl⟩
  · have h2 := (name?_suffix hu).length_le
    have h3 := (blanks?_suffix hv).length_le
    have h4 := onTable?_length hw
    simp only at *
    omega
  · have h4 := onTable?_length hw
    simp only at *
    omega

end SchemaDiagram.Sql
