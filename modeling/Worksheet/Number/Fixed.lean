/-
Text of a double with a fixed number of decimal places.

The exact binary value is rounded to the given number of places; an exact half
goes to the even digit.  The sign is that of the double, so a negative number
that rounds to zero still shows its minus.
-/
import Worksheet.Number.Shortest

namespace Worksheet.Number

/-- A natural number of units of `10^(-places)`, written with that many digits
after the point. -/
def withPlaces (places units : Nat) : List Char :=
  let digits := digitChars units
  let padded := List.replicate (places + 1 - digits.length) '0' ++ digits
  let whole := padded.take (padded.length - places)
  if places = 0 then whole else whole ++ '.' :: padded.drop (padded.length - places)

/-- The number of decimal places in which every double can be written exactly.  The
places after these are zeros. -/
def exactPlaces : Nat :=
  1074

/-- The double rounded to `places` digits after the decimal point. -/
def fixedText (places : Nat) (x : Float) : String :=
  match Shape.ofFloat x with
  | .nan => "NaN"
  | .infinite negative => String.ofList (signChars negative ++ "inf".toList)
  | .finite b =>
    let (num, den) := b.ratio
    let rounded := min places exactPlaces
    let units := roundDiv (num * Nat.pow 10 rounded) den .toEven
    String.ofList (signChars b.negative ++ withPlaces rounded units ++
      List.replicate (places - rounded) '0')

end Worksheet.Number
