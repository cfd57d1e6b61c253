import SchemaDiagram.Json.Basic
import SchemaDiagram.Proofs.Json.Reader

set_option autoImplicit false

namespace SchemaDiagram.Json

mutual

def value : Json → Value
  | null => .null
  | bool b => .bool b
  | string s => .string s
  | array items => .array (itemValues items)
  | object members => .object (memberValues members)

def itemValues : List Json → List Value
  | [] => []
  | v :: rest => v.value :: itemValues rest

def memberValues : List (Text × Json) → List (Text × Value)
  | [] => []
  | (key, v) :: rest => (key, v.value) :: memberValues rest

end

theorem itemValues_eq_map (items : List Json) : itemValues items = items.map value := by
  induction items with
  | nil => rfl
  | cons v rest ih => rw [itemValues, ih, List.map_cons]

theorem memberValues_eq_map (members : List (Text × Json)) :
    memberValues members = members.map fun m => (m.1, m.2.value) := by
  induction members with
  | nil => rfl
  | cons m rest ih => rw [memberValues, ih, List.map_cons]

theorem layoutItems_eq_map (depth : Nat) (items : List Json) :
    layoutItems depth items = items.map (layout depth) := by
  induction items with
  | nil => rfl
  | cons v rest ih => rw [layoutItems, ih, List.map_cons]

theorem layoutMembers_eq_map (depth : Nat) (members : List (Text × Json)) :
    layoutMembers depth members =
      members.map fun m => literal m.1 ++ ": ".toList ++ layout depth m.2 := by
  induction members with
  | nil => rfl
  | cons m rest ih => rw [layoutMembers, ih, List.map_cons]

inductive KeysDistinct : Json → Prop where
  | null : KeysDistinct null
  | bool (b : Bool) : KeysDistinct (bool b)
  | string (s : Text) : KeysDistinct (string s)
  | array {items : List Json} (h : ∀ v ∈ items, KeysDistinct v) : KeysDistinct (array items)
  | object {members : List (Text × Json)} (hkeys : (members.map Prod.fst).Nodup)
      (h : ∀ m ∈ members, KeysDistinct m.2) : KeysDistinct (object members)

namespace Reader
variable {α : Type}

theorem run?_cons (expected : Expected) (c : Char) (s : Text) :
    run? ⟨expected, .between⟩ (c :: s) = (begin? expected c).bind fun r => run? r s := rfl

theorem run?_append (r : Reader) (s t : Text) :
    run? r (s ++ t) = (run? r s).bind fun r => run? r t := List.foldlM_append

theorem hexValue?_hexDigit : ∀ n < 16, hexValue? (hexDigit n) = some n := by decide

theorem run?_code {n : Nat} (hn : n < 32) (expected : Expected) (s : Text) :
    run? ⟨expected, .inString ⟨s, none⟩⟩
        ['\\', 'u', '0', '0', hexDigit (n / 16), hexDigit (n % 16)] =
      some ⟨expected, .inString ⟨s ++ [Char.ofNat n], none⟩⟩ := by
  have hhigh := hexValue?_hexDigit (n / 16) (by omega)
  have hlow := hexValue?_hexDigit (n % 16) (by omega)
  have hsum : 16 * (n / 16) + n % 16 = n := by omega
  have hzeros : run? ⟨expected, .inString ⟨s, none⟩⟩ ['\\', 'u', '0', '0'] =
      some ⟨expected, .inCode ⟨s, none⟩ 1 0⟩ := rfl
  have hcode : Content.addCode? ⟨s, none⟩ n = some ⟨s ++ [Char.ofNat n], none⟩ := by
    have hhigh : ¬ (0xD800 ≤ n ∧ n < 0xDC00) := by omega
    have hlow : ¬ (0xDC00 ≤ n ∧ n < 0xE000) := by omega
    simp only [Content.addCode?, if_neg hhigh, if_neg hlow]
  have hdigits : run? ⟨expected, .inCode ⟨s, none⟩ 1 0⟩ [hexDigit (n / 16), hexDigit (n % 16)] =
      some ⟨expected, .inString ⟨s ++ [Char.ofNat n], none⟩⟩ := by
    simp only [run?, List.foldlM_cons, List.foldlM_nil, step?, hhigh, hlow, Option.bind_eq_bind,
      Option.bind_some, Nat.mul_zero, Nat.zero_add, hsum, hcode]
    rfl
  have hall := run?_append ⟨expected, .inString ⟨s, none⟩⟩ ['\\', 'u', '0', '0']
    [hexDigit (n / 16), hexDigit (n % 16)]
  rw [hzeros, Option.bind_some, hdigits] at hall
  exact hall

theorem run?_escapeChar (expected : Expected) (s : Text) (c : Char) :
    run? ⟨expected, .inString ⟨s, none⟩⟩ (escapeChar c) =
      some ⟨expected, .inString ⟨s ++ [c], none⟩⟩ := by
  unfold escapeChar
  split
  · subst c; rfl
  split
  · subst c; rfl
  split
  · subst c; rfl
  split
  · subst c; rfl
  split
  · subst c; rfl
  split
  · subst c; rfl
  split
  · subst c; rfl
  split
  · rename_i hcontrol
    rw [run?_code hcontrol, Char.ofNat_toNat]
  · rename_i hquote hbackslash _ _ _ _ _ hcontrol
    simp only [run?, List.foldlM_cons, List.foldlM_nil, step?, if_neg hquote, if_neg hbackslash,
      if_neg hcontrol, Content.add?]
    rfl

theorem run?_escaped (expected : Expected) (read s : Text) :
    run? ⟨expected, .inString ⟨read, none⟩⟩ (s.flatMap escapeChar) =
      some ⟨expected, .inString ⟨read ++ s, none⟩⟩ := by
  induction s generalizing read with
  | nil =>
    rw [List.append_nil]
    rfl
  | cons c s ih =>
    rw [List.flatMap_cons, run?_append, run?_escapeChar, Option.bind_some, ih, List.append_assoc,
      List.singleton_append]

theorem run?_literal (expected : Expected) (s : Text) :
    run? ⟨expected, .between⟩ (literal s) = take? expected (.scalar (.string s)) := by
  have hopen : run? ⟨expected, .between⟩ ['"'] = some ⟨expected, .inString ⟨[], none⟩⟩ := rfl
  have hclose : run? ⟨expected, .inString ⟨s, none⟩⟩ ['"'] =
      (take? expected (.scalar (.string s))).bind some := rfl
  rw [literal, run?_append, run?_append, hopen, Option.bind_some, run?_escaped, Option.bind_some,
    List.nil_append, hclose, Option.bind_fun_some]

theorem run?_newLine (expected : Expected) (depth : Nat) :
    run? ⟨expected, .between⟩ (newLine depth) = some ⟨expected, .between⟩ := by
  have hspaces : ∀ n, run? ⟨expected, .between⟩ (List.replicate n ' ') = some ⟨expected, .between⟩ := by
    intro n
    induction n with
    | zero => rfl
    | succ n ih =>
      rw [List.replicate_succ, run?_cons]
      exact ih
  rw [newLine, run?_cons]
  exact hspaces (2 * depth)

/-- How the reader goes through an array or an object: what it expects before an entry, behind one,
and behind the end. -/
structure Enclosure (α : Type) where
  right : Char
  before : List α → Expected
  behind : List α → α → Expected
  ended : List α → Expected
  next : ∀ read a, begin? (behind read a) ',' = some ⟨before (read ++ [a]), .between⟩
  endEmpty : begin? (before []) right = some ⟨ended [], .between⟩
  endLast : ∀ read a, begin? (behind read a) right = some ⟨ended (read ++ [a]), .between⟩

def arrayOf (stack : List Frame) : Enclosure Json where
  right := ']'
  before read := .value (.items (read.map value) :: stack)
  behind read v := .separator v.value (.items (read.map value) :: stack)
  ended read := .separator (.array (read.map value)) stack
  next read v := by
    rw [List.map_append]
    rfl
  endEmpty := rfl
  endLast read v := by
    rw [List.map_append]
    rfl

def objectOf (stack : List Frame) : Enclosure (Text × Json) where
  right := '\x7d'
  before read := .key (read.map fun m => (m.1, m.2.value)) stack
  behind read m := .separator m.2.value (.member (read.map fun m => (m.1, m.2.value)) m.1 :: stack)
  ended read := .separator (.object (read.map fun m => (m.1, m.2.value))) stack
  next read m := by
    rw [List.map_append]
    rfl
  endEmpty := rfl
  endLast read m := by
    rw [List.map_append]
    rfl

section
variable (e : Enclosure α) {line : α → Text} (depth : Nat)

theorem run?_lines (a : α) (read rest : List α)
    (h : ∀ before b after, read ++ a :: rest = before ++ b :: after →
      run? ⟨e.before before, .between⟩ (line b) = some ⟨e.behind before b, .between⟩) :
    run? ⟨e.before read, .between⟩
        (Text.join [','] ((a :: rest).map fun b => newLine (depth + 1) ++ line b) ++
          newLine depth ++ [e.right]) =
      some ⟨e.ended (read ++ a :: rest), .between⟩ := by
  have hfirst : run? ⟨e.before read, .between⟩ (newLine (depth + 1) ++ line a) =
      some ⟨e.behind read a, .between⟩ := by
    rw [run?_append, run?_newLine]
    exact h read a rest rfl
  induction rest generalizing a read with
  | nil =>
    rw [List.map_singleton, Text.join, List.intercalate_singleton, run?_append, run?_append, hfirst,
      Option.bind_some, run?_newLine, Option.bind_some, run?_cons, e.endLast]
    rfl
  | cons b rest ih =>
    have hassoc : read ++ a :: b :: rest = (read ++ [a]) ++ b :: rest := by
      rw [List.append_assoc]
      rfl
    rw [hassoc] at h ⊢
    have hrest := ih b (read ++ [a]) h ?_
    · rw [List.map_cons, List.map_cons, Text.join, List.intercalate_cons_cons, List.append_assoc,
        List.append_assoc, List.append_assoc, run?_append, hfirst, Option.bind_some,
        List.singleton_append, run?_cons, e.next, Option.bind_some, ← List.append_assoc]
      exact hrest
    · rw [run?_append, run?_newLine]
      exact h (read ++ [a]) b rest rfl

theorem run?_enclosed (entries : List α)
    (h : ∀ before b after, entries = before ++ b :: after →
      run? ⟨e.before before, .between⟩ (line b) = some ⟨e.behind before b, .between⟩)
    (left : Char) {expected : Expected}
    (hleft : begin? expected left = some ⟨e.before [], .between⟩) :
    run? ⟨expected, .between⟩ (enclose left e.right depth (entries.map line)) =
      some ⟨e.ended entries, .between⟩ := by
  cases entries with
  | nil =>
    rw [List.map_nil, enclose, run?_cons, hleft, Option.bind_some, run?_cons, e.endEmpty]
    rfl
  | cons a rest =>
    have hlines := run?_lines e depth a [] rest h
    rw [List.nil_append] at hlines
    rw [List.map_cons, enclose, ← List.map_cons, List.map_map, List.append_assoc, List.append_assoc,
      List.singleton_append, run?_cons, hleft, Option.bind_some, ← List.append_assoc]
    · exact hlines
    · exact List.cons_ne_nil _ _

end

/-- Where a value is expected, the reader takes all of the laid out text. -/
theorem run?_layout {v : Json} (h : KeysDistinct v) (depth : Nat) (stack : List Frame) :
    run? ⟨.value stack, .between⟩ (layout depth v) = some ⟨.separator v.value stack, .between⟩ := by
  induction h generalizing depth stack with
  | null => rfl
  | bool b => cases b <;> rfl
  | string s =>
    rw [layout, run?_literal]
    rfl
  | @array items h ih =>
    rw [layout, layoutItems_eq_map, value, itemValues_eq_map]
    refine run?_enclosed (arrayOf stack) depth items ?_ '[' rfl
    rintro before v after rfl
    exact ih v (by simp) (depth + 1) _
  | @object members hkeys h ih =>
    rw [layout, layoutMembers_eq_map, value, memberValues_eq_map]
    refine run?_enclosed (objectOf stack) depth members ?_ '\x7b' rfl
    rintro before m after rfl
    have hnew : m.1 ∉ (before.map fun m => (m.1, m.2.value)).map Prod.fst := by
      rw [List.map_map]
      rw [List.map_append, List.map_cons] at hkeys
      exact fun hm => (List.nodup_append.1 hkeys).2.2 m.1 hm m.1 List.mem_cons_self rfl
    have hkey : run? ⟨(objectOf stack).before before, .between⟩ (literal m.1) =
        some ⟨.colon (before.map fun m => (m.1, m.2.value)) m.1 stack, .between⟩ := by
      rw [run?_literal]
      simp only [take?, objectOf, Expected.take?, if_neg hnew, Option.map_some]
    have hcolon : run? ⟨.colon (before.map fun m => (m.1, m.2.value)) m.1 stack, .between⟩ ": ".toList =
        some ⟨.value (.member (before.map fun m => (m.1, m.2.value)) m.1 :: stack), .between⟩ := rfl
    rw [run?_append, run?_append, hkey, Option.bind_some, hcolon]
    exact ih m (by simp) (depth + 1) _

end Reader

theorem read?_render {v : Json} (h : KeysDistinct v) : read? v.render = some v.value := by
  rw [read?, render, Reader.run?_layout h]
  rfl

end SchemaDiagram.Json
