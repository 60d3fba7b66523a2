/-
What a sheet asks of its engine.

A sheet does no mathematics of its own.  It hands the text of an expression to an
engine and shows what the engine makes of it.  An engine keeps the expression it
parsed last and the value it calculated last; everything that is shown refers to
these.

The state of an engine is a value of some type `σ`, and `MathEngine σ` says how the
state answers.  A call can be refused with a message, which is shown in place, or
the engine can crash, which ends the pass; the state that the call left behind
stays in either case.  A call can also raise the cancellation flag of the pass that
made it.
-/
import Worksheet.Angle
import Worksheet.Complex
import Worksheet.Fault
import Worksheet.InputQueue

namespace Worksheet

/-- A flag that asks a pass to stop before its next line. -/
structure CancelFlag where
  raised : Bool
  deriving DecidableEq, Repr, Inhabited

namespace CancelFlag

/-- A flag that has not been raised. -/
def lowered : CancelFlag :=
  ⟨false⟩

/-- Asks the pass to stop. -/
def cancel (_ : CancelFlag) : CancelFlag :=
  ⟨true⟩

/-- Takes the request back. -/
def reset (_ : CancelFlag) : CancelFlag :=
  ⟨false⟩

/-- Asks the pass to stop if a call wants it to. -/
def raiseIf (wanted : Bool) (t : CancelFlag) : CancelFlag :=
  ⟨t.raised || wanted⟩

end CancelFlag

/-- What a crash leaves behind: a text, or nothing legible. -/
abbrev Payload : Type :=
  Option String

/-- Why a call of an engine or a plotter gave no result. -/
inductive Failure where
  /-- The call was refused, with a message for the reader of the sheet. -/
  | refused (message : String)
  /-- The engine crashed. -/
  | crashed (payload : Payload)
  deriving DecidableEq, Repr

/-- The fault that a failure is reported as. -/
def Failure.fault : Failure → Fault
  | .refused message => .calculation (.reported message)
  | .crashed payload => .unexpected (payload.getD "unknown failure.")

/-- What a call of an engine leaves behind. -/
structure Reply (σ : Type) where
  outcome : Except Failure Unit
  engine : σ
  /-- Whether the call asks for the pass to be cancelled. -/
  cancels : Bool := false

/-- How the state of an engine answers the calls of a sheet. -/
class MathEngine (σ : Type) where
  /-- Reads an expression, taking a value from the queue for each placeholder. -/
  parse : String → InputQueue → σ → Reply σ × InputQueue
  /-- Calculates the expression parsed last. -/
  calculate : σ → Reply σ
  /-- The value calculated last. -/
  result : σ → Complex
  /-- The expression parsed last, as inline markup. -/
  html : σ → String
  /-- The expression parsed last, in structured form. -/
  xml : σ → String
  /-- The value calculated last, with a number of decimals.  An engine cannot refuse to
  show a value, but it can crash. -/
  resultText : Nat → σ → Except Payload String
  setVariable : String → Float → σ → σ
  angleMode : σ → AngleMode
  setAngleMode : AngleMode → σ → σ
  /-- Tells the engine whether the pass that begins calculates. -/
  setCalculating : Bool → σ → σ := fun _ e => e
  /-- Tells the engine whether a plot is being rendered. -/
  setPlotting : Bool → σ → σ := fun _ e => e
  /-- Whether the engine asks the pass to stop. -/
  wantsStop : σ → Bool := fun _ => false

end Worksheet
