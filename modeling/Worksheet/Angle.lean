/-
The unit of angles.

Trigonometric functions read their argument in the unit that is in force.  The
conversions multiply and divide in the order given here, which decides the last
bit of the result.
-/

namespace Worksheet

/-- The unit of angles; degrees are in force at the start. -/
inductive AngleMode where
  | degrees
  | radians
  | gradians
  deriving DecidableEq, Repr, Inhabited

/-- The double nearest to π. -/
def pi : Float :=
  3.141592653589793

/-- An angle given in this unit, in radians. -/
def AngleMode.toRadians : AngleMode → Float → Float
  | .degrees, x => x * (pi / 180.0)
  | .radians, x => x
  | .gradians, x => x * pi / 200.0

end Worksheet
