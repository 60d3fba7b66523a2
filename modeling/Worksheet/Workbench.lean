/-
Compiling a sheet.

A workbench keeps an engine, a plotter, the settings and a cancellation flag from
one pass to the next, so a precision set by `#round` in one pass still holds in the
following one.  A pass turns a source into markup, either calculated or as a
preview, in which every branch and every loop body is shown once and nothing is
evaluated.
-/
import Worksheet.Sheet.Run

namespace Worksheet

/-- What is kept from one pass to the next. -/
structure Workbench (σ ρ : Type) where
  engine : σ
  plots : Option ρ
  settings : Settings
  cancel : CancelFlag

/-- The state at the start of a pass. -/
def Pass.start {σ ρ : Type} (inputs : List String) (engine : σ) (w : Workbench σ ρ) :
    Pass σ ρ where
  conditions := .initial
  loops := .initial w.settings.maxIterations
  page :=
    { engine
      plots := w.plots
      settings := w.settings
      cancel := w.cancel
      inputs := .ofList inputs
      visible := true
      mode := .equation
      output := #[] }

/-- The reports on blocks that are still open at the end of a sheet. -/
def Pass.unclosed {σ ρ : Type} (s : Pass σ ρ) : List Piece :=
  (if s.conditions.depth = 0 then [] else [.notice (Fault.unclosed .condition).message]) ++
    (if s.loops.blocks.isEmpty then [] else [.notice (Fault.unclosed .loop).message])

namespace Workbench

variable {σ ρ : Type} [MathEngine σ] [Plotter ρ σ]

/-- The engine as a pass finds it: told whether to calculate, and with the factor of
the length units as a variable. -/
def preparedEngine (calculate : Bool) (w : Workbench σ ρ) : σ :=
  MathEngine.setVariable "Units" w.settings.unitsFactor
    (MathEngine.setCalculating calculate w.engine)

/-- The pieces that a pass writes, and the state it ends in. -/
def pieces (source : String) (calculate : Bool) (inputs : List String) (w : Workbench σ ρ) :
    List Piece × Pass σ ρ :=
  let (ending, s) :=
    (Pass.start inputs (w.preparedEngine calculate) w).run calculate (Sheet.lines source) 0
  let unclosed := if ending = .completed then s.unclosed else []
  (s.page.output.toList ++ unclosed, s)

/-- Compiles a source to markup. -/
def compile (source : String) (calculate : Bool) (inputs : List String) (w : Workbench σ ρ) :
    String × Workbench σ ρ :=
  let (pieces, s) := w.pieces source calculate inputs
  let settings := s.page.settings
  (Markup.fillUnits (render pieces) settings.units calculate,
    { engine := s.page.engine, plots := s.page.plots, settings, cancel := s.page.cancel })

end Workbench

end Worksheet
