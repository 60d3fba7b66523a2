/-
The exact value of a binary floating-point number.

A finite double is `±m · 2^q` for a natural number `m` and an integer `q`.
`Shape.ofFloat` reads these off the bits, and `nearestRatio` goes the other way:
the double nearest to a ratio of natural numbers.  Both are plain arithmetic on
natural numbers, so what is printed, read and rounded elsewhere in this folder
is exact.

* `roundDiv` — a quotient rounded to a natural number, with the rule for a tie
  as a parameter;
* `roundHalfAway` — a double rounded to a whole number, a half going away from
  zero;
* `wholeBelow` — the same as a natural number, kept within a bound.
-/

namespace Worksheet.Number

/-- Which neighbour an exact half goes to. -/
inductive Tie where
  | toEven
  | away
  deriving DecidableEq, Repr

/-- The natural number nearest to `num / den`. -/
def roundDiv (num den : Nat) (tie : Tie) : Nat :=
  let floor := num / den
  let twice := 2 * (num % den)
  if twice < den then floor
  else if den < twice then floor + 1
  else
    match tie with
    | .toEven => floor + floor % 2
    | .away => floor + 1

/-- `±mantissa · 2^exponent`. -/
structure Binary where
  negative : Bool
  mantissa : Nat
  exponent : Int
  deriving DecidableEq, Repr

/-- The weight of the sign in the bits of a double. -/
def signBit : Nat :=
  0x8000000000000000

/-- How many doubles there are from one power of two up to the next. -/
def binade : Nat :=
  0x10000000000000

/-- What a double stands for. -/
inductive Shape where
  | nan
  | infinite (negative : Bool)
  | finite (value : Binary)
  deriving DecidableEq, Repr

/-- The exact value of a double. -/
def Shape.ofFloat (x : Float) : Shape :=
  let bits := x.toBits.toNat
  let negative := bits / signBit == 1
  let field : Nat := bits / binade % 2048
  let fraction : Nat := bits % binade
  if field = 2047 then
    if fraction = 0 then .infinite negative else .nan
  else if field = 0 then .finite ⟨negative, fraction, -1074⟩
  else .finite ⟨negative, fraction + binade, (field : Int) - 1075⟩

/-- `base^q` for a positive `q`, and otherwise one. -/
def raise (base : Nat) (q : Int) : Nat :=
  Nat.pow base q.toNat

/-- The magnitude of a finite value as a ratio of natural numbers. -/
def Binary.ratio (b : Binary) : Nat × Nat :=
  (b.mantissa * raise 2 b.exponent, raise 2 (-b.exponent))

/-- The double with the given sign whose magnitude is encoded by `bits`. -/
def ofMagnitude (negative : Bool) (bits : Nat) : Float :=
  Float.ofBits (UInt64.ofNat (if negative then bits + signBit else bits))

/-- The bits of infinity, which are also where the finite magnitudes end. -/
def infinityBits : Nat :=
  2047 * binade

/-- The bits of what is not a number. -/
def nanBits : Nat :=
  infinityBits + binade / 2

/-- The double nearest to `±num / den`; a tie goes to the even mantissa, and
what is too large becomes infinite. -/
def nearestRatio (negative : Bool) (num den : Nat) : Float :=
  if num = 0 then ofMagnitude negative 0
  else
    let guess : Int := num.log2 - den.log2
    let scale := if num * raise 2 (-guess) < den * raise 2 guess then guess - 1 else guess
    let exponent := max (scale - 52) (-1074)
    let mantissa := roundDiv (num * raise 2 (-exponent)) (den * raise 2 exponent) .toEven
    ofMagnitude negative (min infinityBits ((exponent + 1074).toNat * binade + mantissa))

/-- A double rounded to a whole number; a half goes away from zero.  The sign
stays, also that of a zero. -/
def roundHalfAway (x : Float) : Float :=
  match Shape.ofFloat x with
  | .finite b =>
    let (num, den) := b.ratio
    nearestRatio b.negative (roundDiv num den .away) 1
  | _ => x

/-- A double rounded to a natural number, at most `bound`; a half goes away from
zero.  Negative values and NaN give zero. -/
def wholeBelow (bound : Nat) (x : Float) : Nat :=
  match Shape.ofFloat x with
  | .nan => 0
  | .infinite negative => if negative then 0 else bound
  | .finite b =>
    if b.negative then 0
    else
      let (num, den) := b.ratio
      min bound (roundDiv num den .away)

theorem wholeBelow_le (bound : Nat) (x : Float) : wholeBelow bound x ≤ bound := by
  unfold wholeBelow
  split
  · exact Nat.zero_le _
  · split
    · exact Nat.zero_le _
    · exact Nat.le_refl _
  · split
    · exact Nat.zero_le _
    · exact Nat.min_le_left _ _

end Worksheet.Number
