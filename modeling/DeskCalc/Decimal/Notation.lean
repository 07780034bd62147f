import DeskCalc.Decimal.Shortest

/-! # Numbers as text

Two ways to write a double.  `valueText` is what the calculator answers with: plain notation with at
least one fraction digit from a thousandth up to ten million, scientific notation outside.
`numeralText` is how a message cites a number literal: always plain, and no fraction when there is
none.  `fixedText` writes a fixed number of places and `readLiteral` reads a literal. -/

namespace DeskCalc.Decimal

open Binary64

/-- The decimal digits of a natural number. -/
def digitChars (n : Nat) : List Char :=
  Nat.toDigits 10 n

/-- The digits before and after the decimal point of `d`, at least one before. -/
def splitAtPoint (d : Decimal) : List Char × List Char :=
  let ds := digitChars d.digits
  let point : Int := ds.length + d.exponent
  -- the point stands in front of the digits, behind them or among them
  if point ≤ 0 then (['0'], List.replicate (-point).toNat '0' ++ ds)
  else if (ds.length : Int) ≤ point then (ds ++ List.replicate (point - ds.length).toNat '0', [])
  else (ds.take point.toNat, ds.drop point.toNat)

/-- The decimal `d` in plain notation with at least one fraction digit. -/
def pointed (d : Decimal) : List Char :=
  match splitAtPoint d with
  | (whole, []) => whole ++ ['.', '0']
  | (whole, fraction) => whole ++ '.' :: fraction

/-- The decimal `d` in plain notation, without a point when there is no fraction. -/
def plain (d : Decimal) : List Char :=
  match splitAtPoint d with
  | (whole, []) => whole
  | (whole, fraction) => whole ++ '.' :: fraction

/-- A power of ten as written behind the exponent mark: no plus sign. -/
def exponentChars (e : Int) : List Char :=
  if e < 0 then '-' :: digitChars (-e).toNat else digitChars e.toNat

/-- The decimal `d` with one digit before the point, at least one behind it, and an exponent. -/
def scientific (d : Decimal) : List Char :=
  let ds := digitChars d.digits
  let exponent : Int := ds.length + d.exponent - 1
  let fraction := if ds.length = 1 then ['0'] else ds.drop 1
  ds.take 1 ++ '.' :: fraction ++ 'E' :: exponentChars exponent

/-- The sign of `x` as written: a minus or nothing. -/
def signChars (x : Float) : List Char :=
  if isNegative x then ['-'] else []

/-- The shortest decimal of the magnitude of `x`; zero is `0`. -/
def magnitude (x : Float) : Decimal :=
  let bits := x.toBits.toNat % Nat.pow 2 63
  if bits = 0 then ⟨0, 0⟩ else shortest bits

/-- Whether a value is written without an exponent. -/
def inPlainRange (x : Float) : Bool :=
  x == 0.0 || (1e-3 ≤ x.abs && x.abs < 1e7)

/-- A value as the calculator answers it. -/
def valueChars (x : Float) : List Char :=
  if x.isNaN then "NaN".toList
  else if x.isInf then signChars x ++ "Infinity".toList
  else signChars x ++ if inPlainRange x then pointed (magnitude x) else scientific (magnitude x)

/-- A value as the calculator answers it: `7.0`, `0.25`, `1.0E7`, `1.5E-4`, `Infinity`, `NaN`. -/
def valueText (x : Float) : String :=
  String.ofList (valueChars x)

/-- A number literal as a message cites it: `7`, `0.25`, `10000000`, `inf`, `NaN`. -/
def numeralText (x : Float) : String :=
  if x.isNaN then "NaN"
  else if x.isInf then String.ofList (signChars x ++ "inf".toList)
  else String.ofList (signChars x ++ plain (magnitude x))

/-- A finite `x`, not negative, with exactly `places` digits behind the point. -/
def fixedText (places : Nat) (x : Float) : String :=
  let bits := x.toBits.toNat
  let exponent := binaryExponent bits
  let scaled := roundQuotient (significand bits * Nat.pow 10 places * Nat.pow 2 exponent.toNat)
    (Nat.pow 2 (-exponent).toNat)
  let ds := digitChars scaled
  -- so many zeros in front that a digit is left before the point
  let padded := List.replicate (places + 1 - ds.length) '0' ++ ds
  let whole := padded.length - places
  String.ofList (padded.take whole ++ '.' :: padded.drop whole)

/-- The number that a list of decimal digits denotes. -/
def ofDigits (ds : List Char) : Nat :=
  ds.foldl (fun n d => 10 * n + (d.toNat - '0'.toNat)) 0

/-- The double that a literal denotes, correctly rounded: digits, then at most one point, then more
digits. -/
def readLiteral (text : List Char) : Float :=
  let whole := text.takeWhile Char.isDigit
  let fraction := (text.dropWhile Char.isDigit).drop 1
  nearest (ofDigits (whole ++ fraction)) (Nat.pow 10 fraction.length)

end DeskCalc.Decimal
