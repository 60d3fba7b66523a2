/-
Calculated values.

A value is a complex number; a real result has a zero imaginary part.  Its text
shows the imaginary part only when there is one, with its sign as the operator
between the two.
-/
import Worksheet.Number.Shortest

namespace Worksheet

/-- A complex number with floating-point parts. -/
structure Complex where
  re : Float
  im : Float

namespace Complex

/-- A real number as a value. -/
def ofReal (re : Float) : Complex :=
  ⟨re, 0.0⟩

/-- Whether the imaginary part is zero, of either sign. -/
def isReal (z : Complex) : Bool :=
  z.im == 0.0

/-- The text of a value. -/
def text (z : Complex) : String :=
  if z.isReal then Number.text z.re
  else if z.im < 0.0 then Number.text z.re ++ " - " ++ Number.text (-z.im) ++ "i"
  else Number.text z.re ++ " + " ++ Number.text z.im ++ "i"

end Complex

instance : Inhabited Complex := ⟨Complex.ofReal 0.0⟩

end Worksheet
