/-
What a sheet has its engine evaluate.

A logged engine forwards every call to the engine inside it and notes the expressions that it
is handed and the calculations that it is asked for.  Logging changes nothing for the sheet
(`Logged.hom`), so what is noted is what the pass has the engine itself evaluate.

* `Logged` — an engine that notes what it is asked to evaluate;
* `Page.evaluations_evaluate` — what evaluating an expression notes;
* `Workbench.logged` — a workbench whose engine is logged, with `Workbench.compile_logged`.
-/
import Worksheet.Proofs.EngineHom

namespace Worksheet

/-- A call by which an engine evaluates: it is handed an expression, or is asked to calculate
the last one. -/
inductive Evaluation where
  | parse (text : String)
  | calculate
  deriving DecidableEq, Repr

/-- An engine together with what it was asked to evaluate, the latest last. -/
structure Logged (σ : Type) where
  inner : σ
  evaluations : List Evaluation

namespace Logged

variable {σ : Type}

/-- An engine that was not asked to evaluate anything yet. -/
def start (inner : σ) : Logged σ :=
  ⟨inner, []⟩

/-- The engine after an evaluation. -/
def note (e : Logged σ) (evaluation : Evaluation) (inner : σ) : Logged σ :=
  ⟨inner, e.evaluations ++ [evaluation]⟩

instance [MathEngine σ] : MathEngine (Logged σ) where
  parse text inputs e :=
    let (r, rest) := MathEngine.parse text inputs e.inner
    (r.map (e.note (.parse text)), rest)
  calculate e := (MathEngine.calculate e.inner).map (e.note .calculate)
  result e := MathEngine.result e.inner
  html e := MathEngine.html e.inner
  xml e := MathEngine.xml e.inner
  resultText n e := MathEngine.resultText n e.inner
  setVariable name value e := { e with inner := MathEngine.setVariable name value e.inner }
  angleMode e := MathEngine.angleMode e.inner
  setAngleMode mode e := { e with inner := MathEngine.setAngleMode mode e.inner }
  setCalculating b e := { e with inner := MathEngine.setCalculating b e.inner }
  setPlotting b e := { e with inner := MathEngine.setPlotting b e.inner }
  wantsStop e := MathEngine.wantsStop e.inner

/-- Logging changes nothing: the engine inside is driven as it would be without. -/
theorem hom [MathEngine σ] : EngineHom SamplePlotter (inner : Logged σ → σ) where
  parse _ _ _ := rfl
  calculate _ := rfl
  result _ := rfl
  html _ := rfl
  xml _ := rfl
  resultText _ _ := rfl
  setVariable _ _ _ := rfl
  setAngleMode _ _ := rfl
  setCalculating _ _ := rfl
  setPlotting _ _ := rfl
  wantsStop _ := rfl
  render := SamplePlotter.render_map (fun _ _ _ => rfl) (fun _ => rfl) (fun _ => rfl)

end Logged

/-- To evaluate an expression, the engine is handed its text, and if it can read that, it is
asked to calculate. -/
theorem Page.evaluations_evaluate {σ ρ : Type} [MathEngine σ] (text : String)
    (p : Page (Logged σ) ρ) :
    (p.evaluate text).2.engine.evaluations = p.engine.evaluations ++
      match (MathEngine.parse text p.inputs p.engine.inner).1.outcome with
      | .ok () => [.parse text, .calculate]
      | .error _ => [.parse text] := by
  have hparse : p.parse text = ((MathEngine.parse text p.inputs p.engine.inner).1.outcome,
    (p.parse text).2) := rfl
  have hnoted : (p.parse text).2.engine.evaluations = p.engine.evaluations ++ [.parse text] := rfl
  rw [evaluate, hparse]
  generalize (p.parse text).2 = q at hnoted ⊢
  rcases (MathEngine.parse text p.inputs p.engine.inner).1.outcome with e | _
  · exact hnoted
  · have hcalculate : q.calculate.2.engine.evaluations = q.engine.evaluations ++ [.calculate] := rfl
    dsimp only
    generalize q.calculate = r at hcalculate ⊢
    rw [hnoted, List.append_assoc] at hcalculate
    rcases r with ⟨e | _, r⟩
    · exact hcalculate
    · exact hcalculate

namespace Workbench

/-- A workbench whose engine is logged. -/
def logged {σ ρ : Type} (w : Workbench σ ρ) : Workbench (Logged σ) ρ :=
  w.map Logged.start

/-- Compiling with a logged engine gives the same markup, and leaves the engine inside as it
would be without. -/
theorem compile_logged {σ : Type} [MathEngine σ] (source : String) (calculate : Bool)
    (inputs : List String) (w : Workbench σ SamplePlotter) :
    w.compile source calculate inputs =
      ((w.logged.compile source calculate inputs).1,
        (w.logged.compile source calculate inputs).2.map Logged.inner) :=
  Logged.hom.compile source calculate inputs w.logged

end Workbench

end Worksheet
