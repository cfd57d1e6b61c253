import SchemaDiagram.Unicode.CasedTable
import SchemaDiagram.Unicode.SmallLetterTable

/-!
Letter case. `lower` is the full mapping to small letters, the two forms of sigma included.
Capital forms are needed only where they are compared with ASCII words, so `capitals?` gives
the capital form of a text exactly when it is spelled in ASCII.
-/

set_option autoImplicit false

namespace SchemaDiagram.Unicode

def CaseRun.find? : List CaseRun → Nat → Option Nat
  | [], _ => none
  | r :: rest, n =>
    if n < r.first then none
    else if n ≤ r.last ∧ (n - r.first) % r.step = 0 then some (r.small + (n - r.first))
    else CaseRun.find? rest n

/-- The small form of a character; only the dotted capital I needs two characters for it. -/
def smallForm (c : Char) : List Char :=
  if c = 'İ' then ['i', '\u0307']
  else match CaseRun.find? smallLetters c.toNat with
    | some n => [Char.ofNat n]
    | none => [c]

def meetsCased (s : List Char) : Bool :=
  match s.dropWhile (fun c => Ranges.has caseIgnorable c.toNat) with
  | [] => false
  | c :: _ => Ranges.has cased c.toNat

/-- A capital sigma becomes a final one where a cased word ends with it. The first argument holds
the characters before the place, nearest first. -/
def lowerAfter : List Char → List Char → List Char
  | _, [] => []
  | before, c :: s =>
    (if c = 'Σ' then [if meetsCased before && !meetsCased s then 'ς' else 'σ'] else smallForm c) ++
      lowerAfter (c :: before) s

def lower (s : List Char) : List Char := lowerAfter [] s

/-- The capital form of a character where it is spelled in ASCII: the ASCII characters
themselves, the long s, the dotless i, the sharp s and the Latin ligatures. -/
def capital? (c : Char) : Option (List Char) :=
  if c.toNat < 0x80 then some [c.toUpper]
  else match c with
    | 'ß' => some ['S', 'S']
    | 'ı' => some ['I']
    | 'ſ' => some ['S']
    | 'ﬀ' => some ['F', 'F']
    | 'ﬁ' => some ['F', 'I']
    | 'ﬂ' => some ['F', 'L']
    | 'ﬃ' => some ['F', 'F', 'I']
    | 'ﬄ' => some ['F', 'F', 'L']
    | 'ﬅ' => some ['S', 'T']
    | 'ﬆ' => some ['S', 'T']
    | _ => none

def capitals? : List Char → Option (List Char)
  | [] => some []
  | c :: s => do
    let head ← capital? c
    let rest ← capitals? s
    pure (head ++ rest)

end SchemaDiagram.Unicode
