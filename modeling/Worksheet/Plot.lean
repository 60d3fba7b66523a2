/-
Plots and maps.

A line that starts with `$plot` or `$map` is handed to a plotter as a whole.  The
plotter drives the same engine as the rest of the sheet, so a plotted function
can refer to the variables defined above it.
-/
import Worksheet.Engine
import Worksheet.Text.Substitute

namespace Worksheet

/-- A chart of a function, or a colored map of a function of two variables. -/
inductive PlotKind where
  | chart
  | map
  deriving DecidableEq, Repr

/-- The plot that a line asks for, given in lower case and without leading
blanks. -/
def PlotKind.ofLine? (line : List Char) : Option PlotKind :=
  if (Text.stripPrefix? "$plot".toList line).isSome then some .chart
  else if (Text.stripPrefix? "$map".toList line).isSome then some .map
  else none

/-- What a plotter is asked for. -/
structure PlotRequest where
  kind : PlotKind
  /-- The whole line, as written. -/
  line : String
  /-- Whether the pass calculates, or shows a preview. -/
  calculate : Bool
  deriving DecidableEq, Repr

/-- What a call of a plotter leaves behind. -/
structure PlotReply (ρ σ : Type) where
  outcome : Except Failure String
  plotter : ρ
  engine : σ
  /-- Whether the call asks for the pass to be cancelled. -/
  cancels : Bool := false

/-- How the state of a plotter answers, working with an engine. -/
class Plotter (ρ σ : Type) where
  /-- Renders a plot line to a fragment of markup. -/
  render : PlotRequest → ρ → σ → PlotReply ρ σ

/-- Two simple plotters: one that keeps a list of what it was asked for and shows
an empty image, or refuses every request; and one that always shows the same
markup, followed by an expression of its own if it has one. -/
inductive SamplePlotter where
  | recorder (requests : List PlotRequest) (refusal : Option String)
  | constant (html : String) (expression : Option String)
  deriving DecidableEq, Repr

namespace SamplePlotter

/-- The requests that a recorder was asked for, in order. -/
def requests : SamplePlotter → List PlotRequest
  | .recorder requests _ => requests
  | .constant _ _ => []

/-- The image that stands for a plot. -/
def image : PlotKind → String
  | .chart => "<img class=\"plot\" />"
  | .map => "<img class=\"map\" />"

/-- Shows an expression that takes no input values, calculated if asked for. -/
def showExpression {σ : Type} [MathEngine σ] (expression : String) (calculate : Bool)
    (engine : σ) : Except Failure String × σ × Bool :=
  let parsed := (MathEngine.parse expression .empty engine).1
  match parsed.outcome with
  | .error e => (.error e, parsed.engine, parsed.cancels)
  | .ok () =>
    if calculate then
      let done := MathEngine.calculate parsed.engine
      (done.outcome.map fun _ => MathEngine.html done.engine, done.engine,
        parsed.cancels || done.cancels)
    else (.ok (MathEngine.html parsed.engine), parsed.engine, parsed.cancels)

/-- Renders a request. -/
def render {σ : Type} [MathEngine σ] (request : PlotRequest) (plotter : SamplePlotter)
    (engine : σ) : PlotReply SamplePlotter σ :=
  match plotter with
  | .recorder requests refusal =>
    { outcome := refusal.elim (.ok (image request.kind)) fun m => .error (.refused m)
      plotter := .recorder (requests ++ [request]) refusal
      engine }
  | .constant html none => { outcome := .ok html, plotter, engine }
  | .constant html (some expression) =>
    let (outcome, engine, cancels) := showExpression expression request.calculate engine
    { outcome := outcome.map fun shown => html ++ shown, plotter, engine, cancels }

instance {σ : Type} [MathEngine σ] : Plotter SamplePlotter σ where
  render := render

end SamplePlotter

end Worksheet
