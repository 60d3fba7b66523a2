/-
A session with a sheet.

An editor compiles the same sheet over and over.  A session keeps what lasts between
those passes: the settings, with the precision that `#round` may have changed, the
values typed into the input fields, and the markup of the last pass.  The
cancellation flag is lowered after every pass.
-/
import Worksheet.Workbench

namespace Worksheet

/-- What lasts between the passes of a session. -/
structure Session where
  settings : Settings
  inputs : InputQueue
  cancel : CancelFlag
  /-- The markup of the last pass. -/
  html : String

namespace Session

/-- A session without input values and before its first pass. -/
def start (settings : Settings) : Session :=
  ⟨settings, .empty, .lowered, ""⟩

/-- Adds the value of the next placeholder. -/
def pushInput (value : String) (s : Session) : Session :=
  { s with inputs := s.inputs.push value }

/-- Forgets all input values. -/
def clearInputs (s : Session) : Session :=
  { s with inputs := .empty }

variable {σ ρ : Type} [MathEngine σ] [Plotter ρ σ]

/-- Runs a pass over a source and keeps its markup and its settings. -/
def parse (source : String) (calculate : Bool) (engine : σ) (plots : Option ρ) (s : Session) :
    Session × σ × Option ρ :=
  let bench : Workbench σ ρ := ⟨engine, plots, s.settings, s.cancel⟩
  let (html, bench) := bench.compile source calculate s.inputs.values
  ({ s with settings := bench.settings, cancel := bench.cancel.reset, html },
    bench.engine, bench.plots)

end Session

end Worksheet
