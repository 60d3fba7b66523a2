/-
What a pass works on.

A page is everything that a pass reads and changes apart from the open blocks and
its position: the engine and the plotter, the settings, the input values, what is
visible and how, and the output.  The functions of this module pass the calls of a
sheet on to its engine and write pieces of output.

Throughout, a function that can fail gives its outcome together with the page it
leaves behind, because a failure does not undo what went before it.
-/
import Worksheet.Engine
import Worksheet.Plot
import Worksheet.Settings
import Worksheet.Sheet.Output

namespace Worksheet

/-- The state of a pass apart from its blocks and its position. -/
structure Page (σ ρ : Type) where
  engine : σ
  plots : Option ρ
  settings : Settings
  cancel : CancelFlag
  inputs : InputQueue
  visible : Bool
  mode : OutputMode
  output : Array Piece

/-- What a visit to a line knows about it. -/
structure Visit where
  /-- Whether the pass calculates, or shows a preview. -/
  calculate : Bool
  /-- The number of the line, counted from one. -/
  number : Nat
  /-- The anchor to write: the number of the line, unless a loop comes back to
  it. -/
  anchor : Option Nat
  /-- The text of the line. -/
  chars : List Char

namespace Page

variable {σ ρ : Type}

/-- Writes pieces of output. -/
def write (pieces : List Piece) (p : Page σ ρ) : Page σ ρ :=
  { p with output := p.output ++ pieces }

/-- Writes pieces of output if a condition holds. -/
def writeIf (condition : Bool) (pieces : List Piece) (p : Page σ ρ) : Page σ ρ :=
  if condition then p.write pieces else p

/-- Passes over input values. -/
def skipInputs (count : Nat) (p : Page σ ρ) : Page σ ρ :=
  { p with inputs := p.inputs.skip count }

/-- Lets the engine read an expression. -/
def parse [MathEngine σ] (text : String) (p : Page σ ρ) :
    Except Failure Unit × Page σ ρ :=
  let (reply, inputs) := MathEngine.parse text p.inputs p.engine
  (reply.outcome,
    { p with engine := reply.engine, inputs, cancel := p.cancel.raiseIf reply.cancels })

/-- Lets the engine calculate the expression read last. -/
def calculate [MathEngine σ] (p : Page σ ρ) : Except Failure Unit × Page σ ρ :=
  let reply := MathEngine.calculate p.engine
  (reply.outcome,
    { p with engine := reply.engine, cancel := p.cancel.raiseIf reply.cancels })

/-- Reads and calculates an expression. -/
def evaluate [MathEngine σ] (text : String) (p : Page σ ρ) :
    Except Failure Complex × Page σ ρ :=
  match p.parse text with
  | (.error e, p) => (.error e, p)
  | (.ok (), p) =>
    match p.calculate with
    | (.error e, p) => (.error e, p)
    | (.ok (), p) => (.ok (MathEngine.result p.engine), p)

/-- Lets the plotter render a request.  The engine is told before and after; if the
call crashes, it is not told that it is over. -/
def renderPlot [MathEngine σ] [Plotter ρ σ] (request : PlotRequest) (plots : ρ)
    (p : Page σ ρ) : Except Failure String × Page σ ρ :=
  let reply := Plotter.render request plots (MathEngine.setPlotting true p.engine)
  let engine :=
    match reply.outcome with
    | .error (.crashed _) => reply.engine
    | _ => MathEngine.setPlotting false reply.engine
  (reply.outcome,
    { p with engine, plots := some reply.plotter, cancel := p.cancel.raiseIf reply.cancels })

@[simp] theorem output_write (pieces : List Piece) (p : Page σ ρ) :
    (p.write pieces).output.toList = p.output.toList ++ pieces := by
  simp [write]

end Page

end Worksheet
