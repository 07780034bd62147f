import DeskCalc.Proofs.LineZipper
import Mathlib.Algebra.GroupWithZero.Nat

/-!
# Cutting a text at a byte

A text can be cut at a byte offset where one of its characters starts or where it ends, and nowhere
else.  The offset of a character index is such a place.

## Key results

- `isSome_cutAtByte_iff`: the offsets at which a text can be cut are the valid ones
- `cutAtByte_byteLength`: a text is cut behind a text with which it starts
- `cutAtByte_byteOffset`: cutting at the offset of a character index cuts at the index
-/

namespace DeskCalc.Text

/-- The number of bytes of a text. -/
def byteLength (cs : List Char) : Nat := (cs.map Char.utf8Size).sum

/-- The empty text has no bytes. -/
@[simp] theorem byteLength_nil : byteLength [] = 0 := rfl

/-- A character adds the bytes of its own encoding. -/
@[simp] theorem byteLength_cons (c : Char) (cs : List Char) :
    byteLength (c :: cs) = c.utf8Size + byteLength cs :=
  List.sum_cons

/-- The bytes of two texts one behind the other. -/
@[simp] theorem byteLength_append (cs cs' : List Char) :
    byteLength (cs ++ cs') = byteLength cs + byteLength cs' := by
  simp only [byteLength, List.map_append, List.sum_append]

/-- The order of the characters does not matter for the number of bytes. -/
@[simp] theorem byteLength_reverse (cs : List Char) : byteLength cs.reverse = byteLength cs := by
  simp only [byteLength, List.map_reverse, List.sum_reverse]

/-- The number of bytes is the length of the encoding. -/
private theorem byteLength_eq (cs : List Char) : byteLength cs =
    (utf8Bytes (String.ofList cs)).length := by
  rw [utf8Bytes_ofList]
  induction cs with
  | nil => rfl
  | cons c cs ih => rw [byteLength_cons, ih, List.flatMap_cons, List.length_append]; simp

/-- Only the empty text has no bytes. -/
theorem byteLength_eq_zero_iff {cs : List Char} : byteLength cs = 0 ↔ cs = [] := by
  cases cs with
  | nil => simp
  | cons c cs =>
    have hpos := c.utf8Size_pos
    simp only [byteLength_cons, reduceCtorEq, iff_false]
    omega

/-- Cuts a text behind its first `n` bytes; none if the cut would go through a character or the text
    has fewer bytes. -/
def cutAtByte : List Char → Nat → Option (List Char × List Char)
  | cs, 0 => some ([], cs)
  | [], _ + 1 => none
  | c :: cs, n + 1 =>
    if c.utf8Size ≤ n + 1 then
      (cutAtByte cs (n + 1 - c.utf8Size)).map fun p => (c :: p.1, p.2)
    else none

/-- Both parts of a cut. -/
theorem cutAtByte_eq_some {cs front more : List Char} {n : Nat}
    (h : cutAtByte cs n = some (front, more)) : cs = front ++ more ∧ byteLength front = n := by
  -- the function drops one character at a time, and the offset by its bytes
  fun_induction cutAtByte cs n generalizing front with
  | case1 cs =>
    cases h
    exact ⟨rfl, rfl⟩
  | case2 n => cases h
  | case3 n c cs hle ih =>
    obtain ⟨p, hp, hfront⟩ := Option.map_eq_some_iff.1 h
    obtain ⟨rfl, rfl⟩ := Prod.mk.inj hfront
    obtain ⟨rfl, hlength⟩ := ih hp
    refine ⟨rfl, ?_⟩
    rw [byteLength_cons, hlength]
    omega
  | case4 n c cs hlt => cases h

/-- A text is cut behind a text with which it starts. -/
theorem cutAtByte_byteLength (front more : List Char) :
    cutAtByte (front ++ more) (byteLength front) = some (front, more) := by
  induction front with
  | nil => rw [byteLength_nil, List.nil_append, cutAtByte]
  | cons c front ih =>
    obtain ⟨n, hn⟩ := Nat.exists_eq_add_one.2 c.utf8Size_pos
    -- the first character has at least one byte, so the cut is not in front of it
    have hsum : byteLength (c :: front) = (n + byteLength front) + 1 := by
      rw [byteLength_cons]
      omega
    have hleft : (n + byteLength front) + 1 - c.utf8Size = byteLength front := by omega
    rw [hsum, List.cons_append, cutAtByte, if_pos (by omega), hleft, ih]
    rfl

/-- The only cuts are those between a text in front and the rest of the text. -/
theorem cutAtByte_eq_some_iff {cs front more : List Char} {n : Nat} :
    cutAtByte cs n = some (front, more) ↔ cs = front ++ more ∧ byteLength front = n := by
  constructor
  · exact cutAtByte_eq_some
  · rintro ⟨rfl, rfl⟩
    exact cutAtByte_byteLength front more

/-- The offsets at which a text can be cut are its valid ones. -/
theorem isSome_cutAtByte_iff {cs : List Char} {n : Nat} :
    (cutAtByte cs n).isSome ↔ (String.Pos.Raw.mk n).IsValid (String.ofList cs) := by
  rw [String.Pos.Raw.isValid_ofList, Option.isSome_iff_exists]
  -- a valid offset is the number of bytes of the first characters
  constructor
  · rintro ⟨⟨front, more⟩, h⟩
    obtain ⟨rfl, rfl⟩ := cutAtByte_eq_some h
    exact ⟨front.length, by rw [List.take_left, byteLength_eq]; rfl⟩
  · rintro ⟨i, hi⟩
    have hlength : n = byteLength (cs.take i) := by rw [byteLength_eq]; exact hi
    refine ⟨(cs.take i, cs.drop i), ?_⟩
    rw [hlength, cutAtByte_eq_some_iff]
    exact ⟨(List.take_append_drop i cs).symm, rfl⟩

/-- The offset of a character index is the number of bytes in front of it. -/
theorem byteOffset_eq_byteLength (cs : List Char) (i : Nat) :
    EditLine.byteOffset cs i = byteLength (cs.take i) := by
  rw [EditLine.byteOffset_eq, byteLength_eq]

/-- Cutting at the offset of a character index cuts at the index. -/
theorem cutAtByte_byteOffset (cs : List Char) (i : Nat) :
    cutAtByte cs (EditLine.byteOffset cs i) = some (cs.take i, cs.drop i) := by
  rw [byteOffset_eq_byteLength, cutAtByte_eq_some_iff]
  exact ⟨(List.take_append_drop i cs).symm, rfl⟩

end DeskCalc.Text
