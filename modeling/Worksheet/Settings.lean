/-
The settings of a pass.
-/
import Worksheet.Loop

namespace Worksheet

/-- The options that shape a pass. -/
structure Settings where
  /-- The decimal places of values shown alone; `#round` changes them. -/
  decimals : Nat
  /-- Whether each equation carries the engine's structured form with it. -/
  formatEquations : Bool
  /-- The length units that stand in for their mark in the output. -/
  units : String
  /-- The iterations of a `#repeat` without a count. -/
  maxIterations : Nat
  deriving DecidableEq, Repr

namespace Settings

/-- Two decimals, plain equations, meters, and the default number of iterations. -/
def initial : Settings where
  decimals := 2
  formatEquations := false
  units := "m"
  maxIterations := initialIterations

instance : Inhabited Settings := ⟨initial⟩

/-- How many of the length units make up a meter; zero for units that are not
known. -/
def unitsFactor (s : Settings) : Float :=
  if s.units = "mm" then 1000.0
  else if s.units = "cm" then 100.0
  else if s.units = "m" then 1.0
  else 0.0

end Settings

end Worksheet
