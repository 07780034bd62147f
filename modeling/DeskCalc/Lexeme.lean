import DeskCalc.Text.Alphabetic
import DeskCalc.Token

/-! # Lexemes

A text is cut into lexemes from left to right.  Spaces (U+0020 only) are passed over; at any other
character the lexeme is the longest number or name that starts there, or else that character alone.
A number is digits, at most one point, and more digits; a name is a letter and then letters and
digits.  Digits are the ASCII digits, letters are those of the `Alphabetic` property. -/

namespace DeskCalc

/-- A token, the characters it was read from, and how many spaces stood before them. -/
structure Lexeme where
  gap : Nat
  text : List Char
  token : Token
deriving DecidableEq

namespace Lexeme

/-- The characters that reading the lexeme consumes, the spaces before it included. -/
def size (l : Lexeme) : Nat := l.gap + l.text.length

/-- The characters that reading lexemes one after the other consumes. -/
def totalSize (ls : List Lexeme) : Nat :=
  -- the zero is named, since Mathlib has a second instance of `Zero Nat`
  @List.sum Nat _ Zero.ofOfNat0 (ls.map size)

/-- The first lexeme adds what it consumes to what the others do. -/
theorem totalSize_cons (l : Lexeme) (ls : List Lexeme) :
    totalSize (l :: ls) = l.size + totalSize ls :=
  List.sum_cons

/-- Whether a name can go on with `c`. -/
def isNameChar (c : Char) : Bool :=
  Text.isAlphabetic c || c.isDigit

/-- Cuts the longest number off the front. -/
def splitNumber (cs : List Char) : List Char × List Char :=
  let whole := cs.takeWhile Char.isDigit
  match cs.dropWhile Char.isDigit with
  -- a point belongs to the number even if no digit follows it
  | '.' :: more => (whole ++ '.' :: more.takeWhile Char.isDigit, more.dropWhile Char.isDigit)
  | rest => (whole, rest)

/-- Cuts the longest run of letters and digits off the front. -/
def splitName (cs : List Char) : List Char × List Char :=
  (cs.takeWhile isNameChar, cs.dropWhile isNameChar)

/-- The lexeme that starts with `c` and goes on in `cs`, and what is left behind it. -/
def startingAt (gap : Nat) (c : Char) (cs : List Char) : Lexeme × List Char :=
  match Token.ofSymbol? c with
  | some token => (⟨gap, [c], token⟩, cs)
  | none =>
    if c.isDigit then
      let (text, rest) := splitNumber (c :: cs)
      (⟨gap, text, .number (Decimal.readLiteral text)⟩, rest)
    else if Text.isAlphabetic c then
      let (text, rest) := splitName (c :: cs)
      (⟨gap, text, .name (String.ofList text)⟩, rest)
    else (⟨gap, [c], .invalid c⟩, cs)

/-- The first lexeme of a text and what is left behind it, `gap` spaces having been passed. -/
def nextFrom? (gap : Nat) : List Char → Option (Lexeme × List Char)
  | [] => none
  | c :: cs => if c = ' ' then nextFrom? (gap + 1) cs else some (startingAt gap c cs)

/-- The first lexeme of a text and what is left behind it; none when only spaces are left. -/
def next? (cs : List Char) : Option (Lexeme × List Char) :=
  nextFrom? 0 cs

/-- A number takes the digit that it starts with at least. -/
theorem length_splitNumber_snd_le (c : Char) (cs : List Char) (h : c.isDigit = true) :
    (splitNumber (c :: cs)).2.length ≤ cs.length := by
  have hle := (List.dropWhile_suffix (l := cs) Char.isDigit).length_le
  unfold splitNumber
  rw [List.dropWhile_cons_of_pos h]
  split
  · next more hm =>
    have := (List.dropWhile_suffix (l := more) Char.isDigit).length_le
    rw [hm, List.length_cons] at hle
    simp only
    omega
  · exact hle

/-- A name takes the letter that it starts with at least. -/
theorem length_splitName_snd_le (c : Char) (cs : List Char) (h : isNameChar c = true) :
    (splitName (c :: cs)).2.length ≤ cs.length := by
  unfold splitName
  rw [List.dropWhile_cons_of_pos h]
  exact (List.dropWhile_suffix isNameChar).length_le

/-- A lexeme takes its first character at least. -/
theorem length_startingAt_snd_le (gap : Nat) (c : Char) (cs : List Char) :
    (startingAt gap c cs).2.length ≤ cs.length := by
  unfold startingAt
  split
  · exact Nat.le_refl _
  · split
    · next h => exact length_splitNumber_snd_le c cs h
    · split
      · next h => exact length_splitName_snd_le c cs (by simp [isNameChar, h])
      · exact Nat.le_refl _

/-- What is left behind the next lexeme is shorter than the text, whatever the gap is. -/
theorem length_nextFrom?_lt {gap : Nat} {cs rest : List Char} {l : Lexeme}
    (h : nextFrom? gap cs = some (l, rest)) : rest.length < cs.length := by
  induction cs generalizing gap with
  | nil => simp [nextFrom?] at h
  | cons c cs ih =>
    rw [nextFrom?] at h
    split at h
    · have := ih h
      simp only [List.length_cons]
      omega
    · have hle := length_startingAt_snd_le gap c cs
      rw [Option.some.inj h] at hle
      exact Nat.lt_succ_of_le hle

/-- What is left behind a lexeme is shorter than the text. -/
theorem length_next?_lt {cs rest : List Char} {l : Lexeme} (h : next? cs = some (l, rest)) :
    rest.length < cs.length :=
  length_nextFrom?_lt h

/-- The lexemes of a text up to its first end of line, which is the last of them. -/
def line (cs : List Char) : List Lexeme :=
  match _h : next? cs with
  | none => []
  | some (l, rest) => if l.token = .endOfLine then [l] else l :: line rest
termination_by cs.length
decreasing_by exact length_next?_lt _h

end Lexeme

end DeskCalc
