import SchemaDiagram.Text.Basic

/-!
Places in a text measured in UTF-8 bytes. A place may fall inside a character; what begins at
such a place is no text, so `dropBytes?` has no answer there.
-/

set_option autoImplicit false

namespace SchemaDiagram.Text

def width : Text → Nat
  | [] => 0
  | c :: s => c.utf8Size + width s

/-- The text from a byte offset on, if the offset falls between two characters. -/
def dropBytes? : Nat → Text → Option Text
  | 0, s => some s
  | _ + 1, [] => none
  | n + 1, c :: s => if c.utf8Size ≤ n + 1 then dropBytes? (n + 1 - c.utf8Size) s else none

def splitBytes? : Nat → Text → Option (Text × Text)
  | 0, s => some ([], s)
  | _ + 1, [] => none
  | n + 1, c :: s =>
    if c.utf8Size ≤ n + 1 then
      (splitBytes? (n + 1 - c.utf8Size) s).map fun parts => (c :: parts.1, parts.2)
    else none

def slice? (start stop : Nat) (s : Text) : Option Text := do
  let tail ← dropBytes? start s
  let rest ← dropBytes? (stop - start) tail
  pure (tail.take (tail.length - rest.length))

@[simp] theorem width_append (s t : Text) : width (s ++ t) = width s + width t := by
  induction s with
  | nil => simp [width]
  | cons c s ih => simp [width, ih]; omega

theorem dropBytes?_width_append (s t : Text) : dropBytes? (width s) (s ++ t) = some t := by
  induction s with
  | nil => simp [width, dropBytes?]
  | cons c s ih =>
    have hc := Char.utf8Size_pos c
    obtain ⟨n, hn⟩ : ∃ n, c.utf8Size + width s = n + 1 := ⟨c.utf8Size + width s - 1, by omega⟩
    have hle : c.utf8Size ≤ n + 1 := by omega
    have hsub : n + 1 - c.utf8Size = width s := by omega
    simp [width, hn, dropBytes?, hle, hsub, ih]

theorem splitBytes?_width_append (s t : Text) :
    splitBytes? (width s) (s ++ t) = some (s, t) := by
  induction s with
  | nil => simp [width, splitBytes?]
  | cons c s ih =>
    have hc := Char.utf8Size_pos c
    obtain ⟨n, hn⟩ : ∃ n, c.utf8Size + width s = n + 1 := ⟨c.utf8Size + width s - 1, by omega⟩
    have hle : c.utf8Size ≤ n + 1 := by omega
    have hsub : n + 1 - c.utf8Size = width s := by omega
    simp [width, hn, splitBytes?, hle, hsub, ih]

end SchemaDiagram.Text
