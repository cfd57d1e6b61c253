import SchemaDiagram.File.Volume

set_option autoImplicit false

namespace SchemaDiagram

/-- What can be seen of a place without going below it. -/
inductive Entry where
  | file (content : ByteArray)
  | directory

namespace Entry

def isDirectory : Entry → Bool
  | file _ => false
  | directory => true

theorem eq_directory {e : Entry} (h : e.isDirectory = true) : e = directory := by
  cases e with
  | file content => cases h
  | directory => rfl

end Entry

namespace Node

def entry : Node → Entry
  | file content => .file content
  | directory _ => .directory

def entryAt (n : Node) (place : List Text) : Option Entry := (n.get? place).map entry

def IsLeaf (n : Node) : Prop := ∀ name, n.child? name = none

theorem entryAt_nil (n : Node) : n.entryAt [] = some n.entry := rfl

theorem entryAt_cons (n : Node) (name : Text) (place : List Text) :
    n.entryAt (name :: place) = (n.child? name).bind fun c => c.entryAt place := by
  unfold entryAt
  rw [get?]
  cases n.child? name <;> rfl

theorem IsLeaf.entryAt {n : Node} (h : n.IsLeaf) {place : List Text} (hplace : place ≠ []) :
    n.entryAt place = none := by
  cases place with
  | nil => exact absurd rfl hplace
  | cons name place => rw [entryAt_cons, h name]; rfl

theorem lookup_setEntry (name : Text) (node : Node) (entries : List (Text × Node)) (a : Text) :
    (setEntry name node entries).lookup a = if a = name then some node else entries.lookup a := by
  induction entries with
  | nil =>
    by_cases ha : a = name
    · simp [setEntry, ha]
    · simp [setEntry, List.lookup_cons, beq_eq_false_iff_ne.2 ha, ha]
  | cons e entries ih =>
    obtain ⟨n, old⟩ := e
    by_cases hn : n = name
    · by_cases ha : a = name
      · simp [setEntry, hn, ha]
      · simp [setEntry, List.lookup_cons, hn, beq_eq_false_iff_ne.2 ha, ha]
    · by_cases ha : a = n
      · simp [setEntry, hn, ha]
      · simp [setEntry, List.lookup_cons, hn, beq_eq_false_iff_ne.2 ha, ih]

section
variable (entries : List (Text × Node)) (name : Text) (rest place : List Text) (node : Node)

theorem child?_put (a : Text) : ((directory entries).put (name :: rest) node).child? a =
    if a = name then some (put ((entries.lookup name).getD (directory [])) rest node)
    else entries.lookup a := by
  rw [put, child?, lookup_setEntry]

theorem entryAt_put_self : ((directory entries).put (name :: rest) node).entryAt (name :: place) =
    (put ((entries.lookup name).getD (directory [])) rest node).entryAt place := by
  rw [entryAt_cons, child?_put, if_pos rfl, Option.bind_some]

theorem entryAt_put_of_ne {name a : Text} (ha : a ≠ name) :
    ((directory entries).put (name :: rest) node).entryAt (a :: place) =
      (directory entries).entryAt (a :: place) := by
  rw [entryAt_cons, child?_put, if_neg ha, entryAt_cons]
  rfl

end

theorem entryAt_put {n leaf : Node} {dir : List Text} {name : Text} (hleaf : leaf.IsLeaf)
    (hdir : n.entryAt dir = some .directory)
    (hold : ∀ old, n.get? (dir ++ [name]) = some old → old.IsLeaf) (place : List Text) :
    (n.put (dir ++ [name]) leaf).entryAt place =
      if place = dir ++ [name] then some leaf.entry else n.entryAt place := by
  induction dir generalizing n place with
  | nil =>
    cases n with
    | file content => cases hdir
    | directory entries =>
      rcases place with _ | ⟨a, place⟩
      · rfl
      by_cases ha : a = name
      · subst ha
        rw [List.nil_append, entryAt_put_self, put]
        rcases place with _ | ⟨b, place⟩
        · rw [if_pos rfl, entryAt_nil]
        · rw [if_neg (by simp), hleaf.entryAt (List.cons_ne_nil b place), entryAt_cons]
          -- Below a leaf there is nothing, be it the new one or the one that it replaces.
          refine (Option.bind_eq_none_iff.2 fun old hchild => ?_).symm
          refine (hold old ?_).entryAt (List.cons_ne_nil b place)
          rw [List.nil_append, get?, hchild]
          rfl
      · rw [List.nil_append, entryAt_put_of_ne _ _ _ _ ha, if_neg (by simp [ha])]
  | cons d dir ih =>
    cases n with
    | file content => cases hdir
    | directory entries =>
      rcases place with _ | ⟨a, place⟩
      · rfl
      by_cases ha : a = d
      · subst ha
        rw [entryAt_cons] at hdir
        obtain ⟨c, hc, hcdir⟩ := Option.bind_eq_some_iff.1 hdir
        have hlookup : entries.lookup a = some c := hc
        have hbelow : ∀ old, c.get? (dir ++ [name]) = some old → old.IsLeaf := by
          intro old hget
          refine hold old ?_
          rw [List.cons_append, get?, hc]
          exact hget
        rw [List.cons_append, entryAt_put_self, hlookup, Option.getD_some, ih hcdir hbelow,
          entryAt_cons, hc]
        simp only [Option.bind_some, List.cons.injEq, true_and]
      · rw [List.cons_append, entryAt_put_of_ne _ _ _ _ ha, if_neg (by simp [ha])]

end Node

end SchemaDiagram
