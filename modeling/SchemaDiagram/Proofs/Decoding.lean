import Mathlib.Data.List.Forall2
import SchemaDiagram.Conversion.Convert
import SchemaDiagram.Proofs.File.Session

/-!
Reading the bytes of a file takes back writing them, in UTF-8 with or without a mark and in UTF-16
behind one. What reads the other bytes is taken to look for marks and to know one character for each
byte (`Sniffs`); the model's own reader does (`sniffs_ofLegacyBytes?`).
-/

set_option autoImplicit false

namespace SchemaDiagram.Text

def unitsOf (c : Char) : List Nat :=
  if c.toNat < 0x10000 then [c.toNat]
  else [0xD800 + (c.toNat - 0x10000) / 0x400, 0xDC00 + (c.toNat - 0x10000) % 0x400]

def unitBytes (bigEndian : Bool) (unit : Nat) : List UInt8 :=
  let high := UInt8.ofNat (unit / 256)
  let low := UInt8.ofNat (unit % 256)
  if bigEndian then [high, low] else [low, high]

def toUtf16 (bigEndian : Bool) (s : Text) : List UInt8 :=
  (s.flatMap unitsOf).flatMap (unitBytes bigEndian)

theorem unit_eq_iff (bigEndian : Bool) (a b : UInt8) (u : Nat) :
    (if bigEndian then a.toNat * 256 + b.toNat else b.toNat * 256 + a.toNat) = u ↔
      [a, b] = unitBytes bigEndian u ∧ u < 0x10000 := by
  have ha := a.toNat_lt
  have hb := b.toNat_lt
  cases bigEndian <;>
    simp only [unitBytes, Bool.false_eq_true, ↓reduceIte, List.cons.injEq, ← UInt8.toNat_inj,
      UInt8.toNat_ofNat', and_true] <;> omega

theorem units?_eq_some_iff {bigEndian : Bool} {bytes : List UInt8} {units : List Nat} :
    units? bigEndian bytes = some units ↔
      bytes = units.flatMap (unitBytes bigEndian) ∧ ∀ u ∈ units, u < 0x10000 := by
  induction bytes using units?.induct bigEndian generalizing units with
  | case1 => cases units <;> cases bigEndian <;> simp [units?, unitBytes]
  | case2 a => cases units <;> cases bigEndian <;> simp [units?, unitBytes]
  | case3 a b bytes ih =>
    cases units with
    | nil => simp [units?]
    | cons u units =>
      have hbytes : ∀ rest : List UInt8, a :: b :: bytes = unitBytes bigEndian u ++ rest ↔
          [a, b] = unitBytes bigEndian u ∧ bytes = rest := by
        intro rest
        cases bigEndian <;> simp [unitBytes, and_assoc]
      simp only [units?, Option.map_eq_some_iff, List.cons.injEq, List.flatMap_cons, hbytes,
        unit_eq_iff, List.forall_mem_cons]
      constructor
      · rintro ⟨us, hread, ⟨hab, hu⟩, rfl⟩
        obtain ⟨hbytes, hus⟩ := ih.1 hread
        exact ⟨⟨hab, hbytes⟩, hu, hus⟩
      · rintro ⟨⟨hab, hbytes⟩, hu, hus⟩
        exact ⟨units, ih.2 ⟨hbytes, hus⟩, ⟨hab, hu⟩, rfl⟩

theorem not_surrogate (c : Char) : isLeading c.toNat = false ∧ isTrailing c.toNat = false := by
  have hvalid : c.toNat < 0xD800 ∨ 0xDFFF < c.toNat := c.valid.imp id And.left
  simp only [isLeading, isTrailing, Bool.and_eq_false_iff, decide_eq_false_iff_not]
  omega

theorem toNat_ofNat_of_isScalar {n : Nat} (h : n < 0xD800 ∨ 0xDFFF < n ∧ n < 0x110000) :
    (Char.ofNat n).toNat = n := by
  rw [Char.ofNat, dif_pos h]
  rfl

theorem ofUnits?_single {u : Nat} (hl : isLeading u = false) (ht : isTrailing u = false)
    (units : List Nat) : ofUnits? (u :: units) = (ofUnits? units).map (Char.ofNat u :: ·) := by
  cases units <;> simp [ofUnits?, hl, ht]

theorem ofUnits?_pair {u v : Nat} (hu : isLeading u = true) (hv : isTrailing v = true)
    (units : List Nat) : ofUnits? (u :: v :: units) =
      (ofUnits? units).map (Char.ofNat (0x10000 + (u - 0xD800) * 0x400 + (v - 0xDC00)) :: ·) := by
  simp [ofUnits?, hu, hv]

theorem ofUnits?_flatMap (s : Text) : ofUnits? (s.flatMap unitsOf) = some s := by
  induction s with
  | nil => rfl
  | cons c s ih =>
    rw [List.flatMap_cons, unitsOf]
    split
    · obtain ⟨hl, ht⟩ := not_surrogate c
      rw [List.singleton_append, ofUnits?_single hl ht, ih]
      simp
    · rename_i hc
      have hlt : c.toNat < 0x110000 := by
        rcases c.valid with h | h
        · exact Nat.lt_trans h (by decide)
        · exact h.2
      have hu : isLeading (0xD800 + (c.toNat - 0x10000) / 0x400) = true := by
        simp only [isLeading, Bool.and_eq_true, decide_eq_true_eq]
        omega
      have hv : isTrailing (0xDC00 + (c.toNat - 0x10000) % 0x400) = true := by
        simp only [isTrailing, Bool.and_eq_true, decide_eq_true_eq]
        omega
      have hvalue : 0x10000 + (0xD800 + (c.toNat - 0x10000) / 0x400 - 0xD800) * 0x400 +
          (0xDC00 + (c.toNat - 0x10000) % 0x400 - 0xDC00) = c.toNat := by
        omega
      rw [List.cons_append, List.singleton_append, ofUnits?_pair hu hv, ih, hvalue]
      simp

theorem unitsOf_ofNat {u : Nat} (hu : u < 0x10000) (hl : isLeading u = false)
    (ht : isTrailing u = false) : unitsOf (Char.ofNat u) = [u] := by
  simp only [isLeading, isTrailing, Bool.and_eq_false_iff, decide_eq_false_iff_not] at hl ht
  have hscalar : u < 0xD800 ∨ 0xDFFF < u ∧ u < 0x110000 := by omega
  rw [unitsOf, toNat_ofNat_of_isScalar hscalar, if_pos hu]

theorem unitsOf_pair {u v : Nat} (hu : isLeading u = true) (hv : isTrailing v = true) :
    unitsOf (Char.ofNat (0x10000 + (u - 0xD800) * 0x400 + (v - 0xDC00))) = [u, v] := by
  simp only [isLeading, isTrailing, Bool.and_eq_true, decide_eq_true_eq] at hu hv
  generalize hn : 0x10000 + (u - 0xD800) * 0x400 + (v - 0xDC00) = n
  have hscalar : n < 0xD800 ∨ 0xDFFF < n ∧ n < 0x110000 := by omega
  have hhigh : 0xD800 + (n - 0x10000) / 0x400 = u := by omega
  have hlow : 0xDC00 + (n - 0x10000) % 0x400 = v := by omega
  rw [unitsOf, toNat_ofNat_of_isScalar hscalar, if_neg (by omega), hhigh, hlow]

theorem eq_flatMap_of_ofUnits? {units : List Nat} {s : Text} (hunits : ∀ u ∈ units, u < 0x10000)
    (h : ofUnits? units = some s) : units = s.flatMap unitsOf := by
  fun_induction ofUnits? units generalizing s with
  | case1 => cases h; rfl
  | case2 u hu => cases h
  | case3 u hu =>
    obtain ⟨hl, ht⟩ := Bool.or_eq_false_iff.1 (eq_false_of_ne_true hu)
    rw [← Option.some.inj h, List.flatMap_singleton,
      unitsOf_ofNat (hunits u List.mem_cons_self) hl ht]
  | case4 u v units hl ht ih =>
    obtain ⟨rest, hrest, rfl⟩ := Option.map_eq_some_iff.1 h
    have hunits' := fun w hw => hunits w (List.mem_cons_of_mem u (List.mem_cons_of_mem v hw))
    rw [List.flatMap_cons, unitsOf_pair hl ht, ← ih hunits' hrest]
    rfl
  | case5 u v units hl ht => cases h
  | case6 u v units hl ht => cases h
  | case7 u v units hl ht ih =>
    obtain ⟨rest, hrest, rfl⟩ := Option.map_eq_some_iff.1 h
    have hunits' := fun w hw => hunits w (List.mem_cons_of_mem u hw)
    rw [List.flatMap_cons, unitsOf_ofNat (hunits u List.mem_cons_self) (eq_false_of_ne_true hl)
      (eq_false_of_ne_true ht), ← ih hunits' hrest]
    rfl

theorem unit_lt_of_mem_unitsOf {c : Char} {u : Nat} (h : u ∈ unitsOf c) : u < 0x10000 := by
  have hlt : c.toNat < 0x110000 := by
    rcases c.valid with h | h
    · exact Nat.lt_trans h (by decide)
    · exact h.2
  unfold unitsOf at h
  split at h
  · simpa [List.mem_singleton.1 h]
  · simp only [List.mem_cons, List.not_mem_nil, or_false] at h
    omega

/-- Reading UTF-16 is the inverse of writing it, so exactly what is written can be read. -/
theorem ofUtf16?_eq_some_iff {bigEndian : Bool} {bytes : List UInt8} {s : Text} :
    ofUtf16? bigEndian bytes = some s ↔ bytes = toUtf16 bigEndian s := by
  unfold ofUtf16?
  constructor
  · intro h
    obtain ⟨units, hunits, hs⟩ := Option.bind_eq_some_iff.1 h
    obtain ⟨rfl, hlt⟩ := units?_eq_some_iff.1 hunits
    rw [toUtf16, ← eq_flatMap_of_ofUnits? hlt hs]
  · rintro rfl
    have hlt : ∀ u ∈ s.flatMap unitsOf, u < 0x10000 := by
      intro u hu
      obtain ⟨c, -, hc⟩ := List.mem_flatMap.1 hu
      exact unit_lt_of_mem_unitsOf hc
    rw [toUtf16, units?_eq_some_iff.2 ⟨rfl, hlt⟩]
    exact ofUnits?_flatMap s

theorem ofUtf8?_eq_some_iff {bytes : ByteArray} {s : Text} :
    ofUtf8? bytes = some s ↔ bytes = toUtf8 s := by
  unfold ofUtf8? String.fromUTF8?
  split
  · rename_i hvalid
    rw [Option.map_some, Option.some.injEq]
    constructor
    · rintro rfl
      rw [toUtf8, String.ofList_toList]
      rfl
    · rintro rfl
      exact String.toList_ofList
  · rename_i hvalid
    simp only [Option.map_none, reduceCtorEq, false_iff]
    rintro rfl
    exact hvalid (ByteArray.isValidUTF8_utf8Encode)

theorem ofUtf8?_eq_none_iff {bytes : ByteArray} : ofUtf8? bytes = none ↔ ¬ bytes.IsValidUTF8 := by
  by_cases h : bytes.IsValidUTF8 <;> simp [ofUtf8?, String.fromUTF8?, h]

def utf8Mark : List UInt8 := [0xEF, 0xBB, 0xBF]

def utf16Mark (bigEndian : Bool) : List UInt8 := if bigEndian then [0xFE, 0xFF] else [0xFF, 0xFE]

def IsMarked (bytes : List UInt8) : Prop :=
  utf8Mark <+: bytes ∨ ∃ bigEndian, utf16Mark bigEndian <+: bytes

/-- What reads bytes that need not be UTF-8 goes by the mark at their beginning. Without one, each
byte is a character of a table, which keeps ASCII. -/
structure Sniffs (decode? : List UInt8 → Option Text) (table : UInt8 → Char) : Prop where
  utf8 : ∀ bytes, decode? (utf8Mark ++ bytes) = ofUtf8? bytes.toByteArray
  utf16 : ∀ bigEndian bytes, decode? (utf16Mark bigEndian ++ bytes) = ofUtf16? bigEndian bytes
  unmarked : ∀ bytes, ¬ IsMarked bytes → decode? bytes = some (bytes.map table)
  ascii : ∀ b : UInt8, b < 0x80 → (table b).toNat = b.toNat

theorem sniffs_ofLegacyBytes? : Sniffs ofLegacyBytes? ofWindows1252 where
  utf8 _ := rfl
  utf16 bigEndian _ := by cases bigEndian <;> rfl
  unmarked bytes h := by
    unfold ofLegacyBytes?
    split
    · exact absurd (Or.inl ⟨_, rfl⟩) h
    · exact absurd (Or.inr ⟨false, _, rfl⟩) h
    · exact absurd (Or.inr ⟨true, _, rfl⟩) h
    · rfl
  ascii b hb := by
    have hnat : b.toNat < 0x80 := hb
    have hlow : ¬ 0x80 ≤ b := by
      rw [UInt8.le_iff_toNat_le]
      exact Nat.not_le.2 hnat
    have hscalar : b.toNat < 0xD800 := by omega
    simp [ofWindows1252, hlow, toNat_ofNat_of_isScalar (Or.inl hscalar)]

theorem toUtf8_byteOrderMark (s : Text) :
    toUtf8 (byteOrderMark :: s) = utf8Mark.toByteArray ++ toUtf8 s :=
  List.utf8Encode_cons

theorem isValidUTF8_utf8Mark_append_iff (bytes : ByteArray) :
    (utf8Mark.toByteArray ++ bytes).IsValidUTF8 ↔ bytes.IsValidUTF8 :=
  @ByteArray.isValidUTF8_utf8Encode_singleton_append_iff bytes byteOrderMark

/-- No character begins with a byte that begins a mark of UTF-16. -/
theorem not_isValidUTF8_utf16Mark_append (bigEndian : Bool) (bytes : List UInt8) :
    ¬ (utf16Mark bigEndian ++ bytes).toByteArray.IsValidUTF8 := by
  intro h
  have hsize : 0 < (utf16Mark bigEndian ++ bytes).toByteArray.size := by
    cases bigEndian <;> simp [utf16Mark]
  have hfirst := h.isUTF8FirstByte_getElem_zero hsize
  have hbyte : (utf16Mark bigEndian ++ bytes).toByteArray[0] =
      if bigEndian then 0xFE else 0xFF := by
    cases bigEndian <;> simp [utf16Mark, ByteArray.getElem_eq_getElem_data]
  rw [hbyte] at hfirst
  revert hfirst
  cases bigEndian <;> decide

theorem eq_toByteArray {bytes : ByteArray} {l : List UInt8} (h : bytes.data.toList = l) :
    bytes = l.toByteArray := by
  rw [ByteArray.ext_iff, List.data_toByteArray, ← h]

section
variable {decode? : List UInt8 → Option Text} {table : UInt8 → Char}

theorem ofBytesBy?_toUtf8 (decode? : List UInt8 → Option Text) (s : Text) :
    ofBytesBy? decode? (toUtf8 s) = some (dropMark s) := by
  rw [ofBytesBy?, ofUtf8?_eq_some_iff.2 rfl]

theorem ofBytesBy?_of_not_valid (decode? : List UInt8 → Option Text) {bytes : ByteArray}
    (h : ¬ bytes.IsValidUTF8) : ofBytesBy? decode? bytes = decode? bytes.data.toList := by
  rw [ofBytesBy?, ofUtf8?_eq_none_iff.2 h]

theorem Sniffs.ofBytesBy?_utf8Mark (h : Sniffs decode? table) {bytes : ByteArray}
    {rest : List UInt8} (hvalid : ¬ bytes.IsValidUTF8) (hbytes : bytes.data.toList = utf8Mark ++ rest) :
    ofBytesBy? decode? bytes = none := by
  rw [ofBytesBy?_of_not_valid decode? hvalid, hbytes, h.utf8, ofUtf8?_eq_none_iff,
    ← isValidUTF8_utf8Mark_append_iff, ← List.toByteArray_append, ← eq_toByteArray hbytes]
  exact hvalid

theorem Sniffs.ofBytesBy?_utf16Mark (h : Sniffs decode? table) {bytes : ByteArray}
    {bigEndian : Bool} {rest : List UInt8} (hbytes : bytes.data.toList = utf16Mark bigEndian ++ rest) :
    ofBytesBy? decode? bytes = ofUtf16? bigEndian rest := by
  have hvalid : ¬ bytes.IsValidUTF8 := by
    rw [eq_toByteArray hbytes]
    exact not_isValidUTF8_utf16Mark_append bigEndian rest
  rw [ofBytesBy?_of_not_valid decode? hvalid, hbytes, h.utf16]

theorem Sniffs.ofBytesBy?_unmarked (h : Sniffs decode? table) {bytes : ByteArray}
    (hvalid : ¬ bytes.IsValidUTF8) (hmark : ¬ IsMarked bytes.data.toList) :
    ofBytesBy? decode? bytes = some (bytes.data.toList.map table) := by
  rw [ofBytesBy?_of_not_valid decode? hvalid, h.unmarked _ hmark]

theorem utf16Mark_append_inj {a b : Bool} {s t : List UInt8}
    (h : utf16Mark a ++ s = utf16Mark b ++ t) : a = b ∧ s = t := by
  cases a <;> cases b <;> simp [utf16Mark] at h ⊢ <;> exact h

/-- A file is refused if it is not UTF-8 and its mark does not keep what it says. -/
theorem Sniffs.ofBytesBy?_eq_none_iff (h : Sniffs decode? table) (bytes : ByteArray) :
    ofBytesBy? decode? bytes = none ↔ ¬ bytes.IsValidUTF8 ∧
      (utf8Mark <+: bytes.data.toList ∨ ∃ bigEndian rest,
        bytes.data.toList = utf16Mark bigEndian ++ rest ∧ ∀ s, rest ≠ toUtf16 bigEndian s) := by
  by_cases hvalid : bytes.IsValidUTF8
  · obtain ⟨s, hs⟩ := hvalid
    have hread : ofBytesBy? decode? bytes = some (dropMark s) := by
      rw [hs]
      exact ofBytesBy?_toUtf8 decode? s
    simp [hread, show bytes.IsValidUTF8 from ⟨s, hs⟩]
  · rw [and_iff_right hvalid]
    by_cases hutf8 : utf8Mark <+: bytes.data.toList
    · obtain ⟨rest, hrest⟩ := hutf8
      rw [h.ofBytesBy?_utf8Mark hvalid hrest.symm]
      exact iff_of_true rfl (Or.inl ⟨rest, hrest⟩)
    · rw [or_iff_right hutf8]
      by_cases hutf16 : ∃ bigEndian, utf16Mark bigEndian <+: bytes.data.toList
      · obtain ⟨bigEndian, rest, hrest⟩ := hutf16
        rw [h.ofBytesBy?_utf16Mark hrest.symm, Option.eq_none_iff_forall_ne_some]
        simp only [ne_eq, ofUtf16?_eq_some_iff]
        constructor
        · intro hnone
          exact ⟨bigEndian, rest, hrest.symm, hnone⟩
        · rintro ⟨bigEndian', rest', hrest', hnone⟩
          obtain ⟨rfl, rfl⟩ := utf16Mark_append_inj (hrest.trans hrest')
          exact hnone
      · rw [h.ofBytesBy?_unmarked hvalid (not_or.2 ⟨hutf8, hutf16⟩)]
        refine iff_of_false (by simp) ?_
        rintro ⟨bigEndian, rest, hrest, -⟩
        exact hutf16 ⟨bigEndian, rest, hrest.symm⟩

theorem Sniffs.forall₂_map (h : Sniffs decode? table) (bytes : List UInt8) :
    List.Forall₂ (fun b c => b < 0x80 → c.toNat = b.toNat) bytes (bytes.map table) := by
  induction bytes with
  | nil => exact .nil
  | cons b bytes ih => exact .cons (h.ascii b) ih

theorem dropMark_of_head?_ne {s : Text} (h : s.head? ≠ some byteOrderMark) : dropMark s = s := by
  cases s with
  | nil => rfl
  | cons c s => exact if_neg fun hc => h (congrArg some hc)

end

end SchemaDiagram.Text

namespace SchemaDiagram
open Text

def decoded (decode? : List UInt8 → Option Text) :
    Except FileError ByteArray → Except ReadError Text
  | .error e => .error (.file e)
  | .ok bytes => (ofBytesBy? decode? bytes).elim (.error .undecodable) .ok

theorem perform_readTextBy (decode? : List UInt8 → Option Text) (s : Session) (path : Text) :
    s.perform (readTextBy decode? path) = (decoded decode? (s.volume.read path), s) := by
  have hlift : s.perform (liftM (FileSystem.read path : StateM Session _) :
      ExceptT ReadError (StateM Session) _) = (.ok (s.volume.read path), s) := rfl
  rw [readTextBy, Session.perform_bind, hlift]
  dsimp only
  cases s.volume.read path with
  | error e => rfl
  | ok bytes =>
    unfold decoded
    dsimp only
    cases ofBytesBy? decode? bytes <;> rfl

/-- What is written in one of the encodings is read as it was written, its mark apart. Other bytes
are one character each, unless they are marked as what they are not, and nothing else is refused. -/
theorem readTextBy_encoded {decode? : List UInt8 → Option Text} {table : UInt8 → Char}
    (h : Sniffs decode? table) {session : Session} {path : Text} {bytes : ByteArray}
    (hread : session.volume.read path = .ok bytes) :
    let result := session.perform (readTextBy decode? path)
    (∀ s, bytes = utf8Mark.toByteArray ++ toUtf8 s → result = (.ok s, session)) ∧
      (∀ s, bytes = toUtf8 s → s.head? ≠ some byteOrderMark → result = (.ok s, session)) ∧
      (∀ bigEndian s, bytes = (utf16Mark bigEndian ++ toUtf16 bigEndian s).toByteArray →
        result = (.ok s, session)) ∧
      (¬ bytes.IsValidUTF8 → ¬ IsMarked bytes.data.toList →
        ∃ s, result = (.ok s, session) ∧
          List.Forall₂ (fun b c => b < 0x80 → c.toNat = b.toNat) bytes.data.toList s) ∧
      (result = (.error .undecodable, session) ↔ ¬ bytes.IsValidUTF8 ∧
        (utf8Mark <+: bytes.data.toList ∨ ∃ bigEndian rest,
          bytes.data.toList = utf16Mark bigEndian ++ rest ∧
            ∀ s, rest ≠ toUtf16 bigEndian s)) := by
  intro result
  have hresult : result = (decoded decode? (.ok bytes), session) := by
    rw [← hread]
    exact perform_readTextBy decode? session path
  -- Reading gives what the bytes stand for and leaves the session as it is.
  have hgives : ∀ s, ofBytesBy? decode? bytes = some s → result = (.ok s, session) := by
    intro s hs
    rw [hresult, decoded, hs]
    rfl
  refine ⟨?_, ?_, ?_, ?_, ?_⟩
  · rintro s rfl
    apply hgives
    rw [← toUtf8_byteOrderMark, ofBytesBy?_toUtf8]
    rfl
  · rintro s rfl hs
    apply hgives
    rw [ofBytesBy?_toUtf8, dropMark_of_head?_ne hs]
  · rintro bigEndian s hbytes
    apply hgives
    have hlist : bytes.data.toList = utf16Mark bigEndian ++ toUtf16 bigEndian s := by
      rw [hbytes, List.data_toByteArray]
    rw [h.ofBytesBy?_utf16Mark hlist, ofUtf16?_eq_some_iff]
  · intro hvalid hmark
    exact ⟨_, hgives _ (h.ofBytesBy?_unmarked hvalid hmark), h.forall₂_map bytes.data.toList⟩
  · rw [← h.ofBytesBy?_eq_none_iff, hresult, decoded]
    cases ofBytesBy? decode? bytes <;> simp

/-- A file in UTF-16 with a character beyond the first plane. -/
theorem readTextBy_encoded_surrogates :
    let bytes := [0xFF, 0xFE, 0xE9, 0x00, 0x3D, 0xD8, 0x00, 0xDE].toByteArray
    let session : Session := { volume := ⟨.directory [("a.sql", .file bytes)], []⟩ }
    Sniffs ofLegacyBytes? ofWindows1252 ∧ session.volume.read "a.sql" = .ok bytes ∧
      bytes = (utf16Mark false ++ toUtf16 false "é😀").toByteArray ∧
      session.perform (readTextBy ofLegacyBytes? "a.sql") = (.ok "é😀", session) := by
  intro bytes session
  have hread : session.volume.read "a.sql" = .ok bytes := rfl
  have hbytes : bytes = (utf16Mark false ++ toUtf16 false "é😀").toByteArray := by decide
  exact ⟨sniffs_ofLegacyBytes?, hread, hbytes,
    (readTextBy_encoded sniffs_ofLegacyBytes? hread).2.2.1 false "é😀" hbytes⟩

end SchemaDiagram
