/-
Reading numbers.

A decimal number is an optional sign, digits with at most one decimal point
among them (at least one digit is needed), and an optional exponent; it becomes
the nearest double.  The words `inf`, `infinity` and `nan` are read in any case.
Nothing else may stand around a number, not even a blank.  `readInteger?` reads
a signed whole number.
-/
import Worksheet.Number.Binary

namespace Worksheet.Number

/-- The number that decimal digits stand for. -/
def ofDigits (cs : List Char) : Nat :=
  cs.foldl (fun n c => 10 * n + (c.toNat - '0'.toNat)) 0

/-- A sign, if there is one, and what follows it. -/
def splitSign : List Char → Bool × List Char
  | '-' :: rest => (true, rest)
  | '+' :: rest => (false, rest)
  | cs => (false, cs)

/-- A whole number: an optional sign and at least one digit. -/
def readInteger? (cs : List Char) : Option Int :=
  let (negative, digits) := splitSign cs
  if digits.isEmpty || !digits.all Char.isDigit then none
  else if negative then some (-(ofDigits digits : Int))
  else some (ofDigits digits)

/-- Whether a whole number can be written in 64 bits, one of them for the sign. -/
def fitsWord (n : Int) : Bool :=
  -0x8000000000000000 ≤ n && n < 0x8000000000000000

/-- The exponent after a mantissa: nothing, or the letter `e` and a whole
number. -/
def readExponent? : List Char → Option Int
  | [] => some 0
  | c :: rest => if c == 'e' || c == 'E' then readInteger? rest else none

/-- The double nearest to `±digits · 10^exponent`, where `digits` has at most
`count` digits.  Exponents far outside the range of doubles are settled without
computing the power. -/
def ofScientific (negative : Bool) (digits count : Nat) (exponent : Int) : Float :=
  if digits = 0 then ofMagnitude negative 0
  else if 400 < exponent then ofMagnitude negative infinityBits
  else if exponent + count < -400 then ofMagnitude negative 0
  else nearestRatio negative (digits * raise 10 exponent) (raise 10 (-exponent))

/-- An unsigned decimal number with an optional exponent. -/
def readDecimal? (negative : Bool) (cs : List Char) : Option Float :=
  let whole := cs.takeWhile Char.isDigit
  let rest := cs.dropWhile Char.isDigit
  let (fraction, rest) :=
    match rest with
    | '.' :: after => (after.takeWhile Char.isDigit, after.dropWhile Char.isDigit)
    | _ => ([], rest)
  if whole.isEmpty && fraction.isEmpty then none
  else
    (readExponent? rest).map fun exponent =>
      let digits := whole ++ fraction
      ofScientific negative (ofDigits digits) digits.length (exponent - fraction.length)

/-- The words for infinity and for what is not a number, in any case. -/
def readWord? (negative : Bool) (cs : List Char) : Option Float :=
  let word := cs.map Char.toLower
  if word = "inf".toList ∨ word = "infinity".toList then
    some (ofMagnitude negative infinityBits)
  else if word = "nan".toList then some (ofMagnitude negative nanBits)
  else none

/-- A number, given by its characters. -/
def readChars? (cs : List Char) : Option Float :=
  let (negative, magnitude) := splitSign cs
  match readDecimal? negative magnitude with
  | some x => some x
  | none => readWord? negative magnitude

/-- A number, given by its text. -/
def read? (s : String) : Option Float :=
  readChars? s.toList

end Worksheet.Number
