/-
The shortest decimal text of a double.

Of all decimal numbers that a reader would round to the given double, the text
shows one with the fewest digits, and of those the one nearest to the exact
value.  It is always written positionally, without an exponent, and a whole
number has no decimal point.

The search runs over the decimal grids of 1, 2, ... 17 digits.  On each grid only
the two neighbours of the value need to be looked at: if any point of the grid
reads back as the double, one of these two does.
-/
import Worksheet.Number.Binary

namespace Worksheet.Number

/-- `digits · 10^exponent`. -/
structure Decimal where
  digits : Nat
  exponent : Int
  deriving DecidableEq, Repr

/-- Whether `num / den < 10^k`. -/
def belowPower (num den : Nat) (k : Int) : Bool :=
  num * raise 10 (-k) < den * raise 10 k

/-- The first of `k`, `k + 1`, ... whose power of ten lies above `num / den`. -/
def climb (num den : Nat) : Nat → Int → Int
  | 0, k => k
  | fuel + 1, k => if belowPower num den k then k else climb num den fuel (k + 1)

/-- The least `k` with `num / den < 10^k`: how many digits stand before the
decimal point. -/
def magnitude (num den : Nat) : Int :=
  climb num den 5 (((num.log2 : Int) - den.log2 - 1) * 30103 / 100000 - 1)

/-- The values that a reader rounds to `mantissa · 2^exponent`, in quarters of
the unit `2^exponent`: those between `low` and `high`, the ends included exactly
if the mantissa is even. -/
structure Span where
  low : Nat
  high : Nat
  closed : Bool
  deriving DecidableEq, Repr

/-- The values that a reader rounds to a number.  Below a power of two the
numbers lie twice as close. -/
def Binary.span (b : Binary) : Span where
  low :=
    if b.mantissa = binade ∧ -1074 < b.exponent then 4 * b.mantissa - 1
    else 4 * b.mantissa - 2
  high := 4 * b.mantissa + 2
  closed := b.mantissa % 2 == 0

/-- Whether the ratio `num / den` lies in the span. -/
def Span.has (s : Span) (num den : Nat) : Bool :=
  if s.closed then s.low * den ≤ num && num ≤ s.high * den
  else s.low * den < num && num < s.high * den

/-- The nearest number on the grid of multiples of `10^unit` that reads back as
the given one; of two equally near ones the larger. -/
def Binary.onGrid? (b : Binary) (unit : Int) : Option Nat :=
  -- in quarters of `2^exponent`, the value is `4 * mantissa` and a step of the
  -- grid is `step / part`
  let quarter := b.exponent - 2
  let step := raise 10 unit * raise 2 (-quarter)
  let part := raise 10 (-unit) * raise 2 quarter
  let value := 4 * b.mantissa * part
  let below := value / step
  let fitsBelow := 0 < below && b.span.has (below * step) part
  let fitsAbove := b.span.has ((below + 1) * step) part
  if fitsBelow && fitsAbove then
    some (if 2 * (value - below * step) < step then below else below + 1)
  else if fitsBelow then some below
  else if fitsAbove then some (below + 1)
  else none

/-- Looks for the first grid with a number that reads back, where the grid of
`count` digits is tried first and the value is below `10^size`. -/
def Binary.search (b : Binary) (size : Int) : Nat → Nat → Decimal
  | 0, count => ⟨0, size - count⟩
  | fuel + 1, count =>
    match b.onGrid? (size - count) with
    | some digits => ⟨digits, size - count⟩
    | none => b.search size fuel (count + 1)

/-- The shortest decimal number that reads back as a given one.  Seventeen
digits are always enough. -/
def Binary.shortest (b : Binary) : Decimal :=
  let (num, den) := b.ratio
  b.search (magnitude num den) 17 1

/-- The decimal digits of a natural number. -/
def digitChars (n : Nat) : List Char :=
  Nat.toDigits 10 n

/-- A decimal number written out without an exponent and without zeros at the
end of its fraction. -/
def Decimal.positional (d : Decimal) : List Char :=
  let digits := digitChars d.digits
  if 0 ≤ d.exponent then digits ++ List.replicate d.exponent.toNat '0'
  else
    let places := (-d.exponent).toNat
    let padded := List.replicate (places + 1 - digits.length) '0' ++ digits
    let whole := padded.take (padded.length - places)
    let fraction := padded.drop (padded.length - places)
    let kept := (fraction.reverse.dropWhile (· == '0')).reverse
    if kept.isEmpty then whole else whole ++ '.' :: kept

/-- The text of a sign: only a minus is written. -/
def signChars (negative : Bool) : List Char :=
  if negative then ['-'] else []

/-- The shortest text that reads back as the double. -/
def text (x : Float) : String :=
  match Shape.ofFloat x with
  | .nan => "NaN"
  | .infinite negative => String.ofList (signChars negative ++ "inf".toList)
  | .finite b =>
    let magnitude := if b.mantissa = 0 then ['0'] else b.shortest.positional
    String.ofList (signChars b.negative ++ magnitude)

end Worksheet.Number
