/-
What can go wrong in a sheet, by cause.

A fault in the structure of a sheet, in a calculation, or in a block that is left
open never stops a pass: it is shown in place and the pass goes on.  Only an
unexpected failure, raised by a crash of the engine, ends it.  Each cause has one
message.
-/
import Worksheet.Number.Shortest

namespace Worksheet

/-- A directive that does not fit the blocks around it. -/
inductive StructureError where
  | missingIf
  | unmatchedEndIf
  | duplicateElse
  | elseIfAfterElse
  | emptyCondition
  | loopWithoutRepeat
  | continueWithoutRepeat
  | entangled
  deriving DecidableEq, Repr

/-- What is said about a directive that does not fit. -/
def StructureError.message : StructureError → String
  | .missingIf => "Condition block not initialized with \"#if\"."
  | .unmatchedEndIf => "Unmatched \"#end if\" without an open \"#if\"."
  | .duplicateElse => "Duplicate \"#else\" in condition block."
  | .elseIfAfterElse => "\"#else if\" is not allowed after \"#else\" in condition block."
  | .emptyCondition => "Condition cannot be empty."
  | .loopWithoutRepeat => "\"#loop\" without a corresponding \"#repeat\"."
  | .continueWithoutRepeat => "\"#continue\" without a corresponding \"#repeat\"."
  | .entangled => "Entangled \"#if - #end if\" and \"#repeat - #loop\" blocks."

/-- The two kinds of block. -/
inductive Block where
  | condition
  | loop
  deriving DecidableEq, Repr

/-- What is said about a block that is still open at the end of a sheet. -/
def Block.unclosedMessage : Block → String
  | .condition => "Error: \"#if\" block not closed. Missing \"#end if\"."
  | .loop => "Error: \"#repeat\" block not closed. Missing \"#loop\"."

/-- The largest number of iterations that a loop can ask for. -/
def maxIterationCount : Nat :=
  2147483647

/-- A calculation that has no usable result. -/
inductive CalculationError where
  /-- The engine or a plotter refused, in its own words. -/
  | reported (message : String)
  | plottingUnavailable
  | complexCondition
  | invalidCondition (value : Float)
  | invalidCount (value : Float)
  | countTooLarge

/-- What is said about a failed calculation. -/
def CalculationError.message : CalculationError → String
  | .reported message => message
  | .plottingUnavailable => "Plotting is not available."
  | .complexCondition => "Condition cannot evaluate to a complex number."
  | .invalidCondition value => "Condition result is invalid: " ++ Number.text value ++ "."
  | .invalidCount value => "Invalid number of iterations: " ++ Number.text value ++ "."
  | .countTooLarge =>
    "Number of iterations exceeds the maximum " ++ toString maxIterationCount ++ "."

/-- Anything that a pass reports. -/
inductive Fault where
  | calculation (cause : CalculationError)
  | structural (cause : StructureError)
  | unclosed (block : Block)
  | unexpected (message : String)

/-- The message of a fault. -/
def Fault.message : Fault → String
  | .calculation cause => cause.message
  | .structural cause => cause.message
  | .unclosed block => block.unclosedMessage
  | .unexpected message =>
    "Unexpected error: " ++ message ++ " Please check the expression consistency."

/-- Whether a fault ends the pass. -/
def Fault.isFatal : Fault → Bool
  | .unexpected _ => true
  | _ => false

end Worksheet
