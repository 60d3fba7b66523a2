/-
An engine that is only watched.

An observation can interfere with the engine: it can crash it, have the pass cancelled, or alter
its results.  One that does none of this (`Observation.Passive`) counts the calculations and,
if asked to, notes the calls.  The calls that a pass makes of an engine under such an observation
are then the calls that it makes of the engine itself, as long as the values of that engine are
real: an observed engine shows no imaginary part but its own.

* `Observation.Passive` — an observation that leaves the engine alone;
* `Watched` — an engine under such an observation;
* `Watched.observed_hom`, `Watched.inner_hom` — it behaves as the observed engine, and as the
  engine inside;
* `Workbench.compile_observed` — compiling with either gives the same markup;
* `Workbench.compile_traced` — so having the calls of an engine noted changes nothing.
-/
import Worksheet.Arithmetic.Engine
import Worksheet.Engine.Observed
import Worksheet.Proofs.EngineHom

namespace Worksheet

/-- An observation that leaves the engine alone: at most, calls are noted. -/
structure Observation.Passive (o : Observation) : Prop where
  crash : o.crash = none
  cancelAfter : o.cancelAfter = none
  stopAfter : o.stopAfter = none
  imaginary : o.imaginary = 0.0

/-- An engine whose values have no imaginary part. -/
class RealValued (σ : Type) [MathEngine σ] : Prop where
  im_result : ∀ e : σ, (MathEngine.result e).im = 0.0

instance : RealValued Arithmetic.Engine where
  im_result _ := rfl

variable {σ : Type}

/-! ### The options of an observed engine -/

namespace Observed

theorem options_note (call : Call) (e : Observed σ) : (e.note call).options = e.options := by
  rw [note]
  split
  · rfl
  · rfl

theorem inner_note (call : Call) (e : Observed σ) : (e.note call).inner = e.inner := by
  rw [note]
  split
  · rfl
  · rfl

variable [MathEngine σ]

theorem options_forwarded (e : Observed σ) :
    (calculate.forwarded e).engine.options = e.options := by
  rw [calculate.forwarded]
  dsimp only
  split
  · rfl
  · rfl

theorem options_calculate (e : Observed σ) : (calculate e).engine.options = e.options := by
  rw [calculate]
  dsimp only
  split
  · split
    · exact options_note .calculate e
    · exact (options_forwarded _).trans (options_note .calculate e)
  · exact (options_forwarded _).trans (options_note .calculate e)

theorem forwarded_inner {e : Observed σ} (h : e.options.cancelAfter = none) :
    MathEngine.calculate e.inner = (calculate.forwarded e).map inner := by
  rw [calculate.forwarded]
  dsimp only
  rw [h]
  rcases MathEngine.calculate e.inner with ⟨failure | _, engine, cancels⟩
  · rfl
  · simp [Reply.map, reached]

/-- A calculation under an observation that leaves the engine alone is its own. -/
theorem calculate_inner {e : Observed σ} (h : e.options.Passive) :
    MathEngine.calculate e.inner = (calculate e).map inner := by
  -- the call is noted and counted first, and that keeps both the options and the engine inside
  have hcrash : (e.note .calculate).options.crash = none := by
    rw [options_note, h.crash]
  have hcancel : (e.note .calculate).options.cancelAfter = none := by
    rw [options_note, h.cancelAfter]
  rw [← inner_note .calculate e, calculate]
  generalize e.note .calculate = noted at hcrash hcancel
  dsimp only
  rw [hcrash]
  exact forwarded_inner (e := { noted with attempts := noted.attempts + 1 }) hcancel

end Observed

/-! ### Watched engines -/

/-- An engine under an observation that leaves it alone. -/
structure Watched (σ : Type) where
  observed : Observed σ
  passive : observed.options.Passive

namespace Watched

/-- The engine inside. -/
def inner (e : Watched σ) : σ :=
  e.observed.inner

/-- The engine after a call that kept its options. -/
def keep (e : Watched σ) (after : Observed σ) (h : after.options = e.observed.options) :
    Watched σ :=
  ⟨after, h ▸ e.passive⟩

/-- The engine after a call that is forwarded. -/
def forward (call : Call) (f : σ → σ) (e : Watched σ) : Watched σ :=
  e.keep (e.observed.forward call f) (Observed.options_note call e.observed)

instance [MathEngine σ] : MathEngine (Watched σ) where
  parse text inputs e :=
    let r := Observed.parse text inputs e.observed
    ({ outcome := r.1.outcome
       engine := e.keep r.1.engine (Observed.options_note _ e.observed)
       cancels := r.1.cancels }, r.2)
  calculate e :=
    let r := Observed.calculate e.observed
    { outcome := r.outcome
      engine := e.keep r.engine (Observed.options_calculate e.observed)
      cancels := r.cancels }
  result e := MathEngine.result e.observed
  html e := MathEngine.html e.observed
  xml e := MathEngine.xml e.observed
  resultText n e := MathEngine.resultText n e.observed
  setVariable name value := forward (.setVariable name value) (MathEngine.setVariable name value)
  angleMode e := MathEngine.angleMode e.observed
  setAngleMode mode := forward (.setAngleMode mode) (MathEngine.setAngleMode mode)
  setCalculating b := forward (.setCalculating b) (MathEngine.setCalculating b)
  setPlotting b := forward (.setPlotting b) (MathEngine.setPlotting b)
  wantsStop e := MathEngine.wantsStop e.observed

theorem observed_hom [MathEngine σ] :
    EngineHom SamplePlotter (observed : Watched σ → Observed σ) where
  parse _ _ _ := rfl
  calculate _ := rfl
  result _ := rfl
  html _ := rfl
  xml _ := rfl
  resultText _ _ := rfl
  setVariable _ _ _ := rfl
  setAngleMode _ _ := rfl
  setCalculating _ _ := rfl
  setPlotting _ _ := rfl
  wantsStop _ := rfl
  render := SamplePlotter.render_map (fun _ _ _ => rfl) (fun _ => rfl) (fun _ => rfl)

theorem inner_forward (call : Call) (f : σ → σ) (e : Watched σ) :
    f e.inner = (e.forward call f).inner := by
  show f e.observed.inner = f (e.observed.note call).inner
  rw [Observed.inner_note]

theorem parse_inner [MathEngine σ] (text : String) (inputs : InputQueue) (e : Watched σ) :
    MathEngine.parse text inputs e.inner =
      ((MathEngine.parse text inputs e).1.map inner, (MathEngine.parse text inputs e).2) := by
  show MathEngine.parse text inputs e.observed.inner = _
  rw [← Observed.inner_note (.parse text) e.observed]
  rfl

theorem inner_hom [MathEngine σ] [RealValued σ] :
    EngineHom SamplePlotter (inner : Watched σ → σ) where
  parse := parse_inner
  calculate e := Observed.calculate_inner e.passive
  result e := by
    -- the imaginary part that is shown is that of the observation
    show _ = (⟨(MathEngine.result e.inner).re, e.observed.options.imaginary⟩ : Complex)
    rw [e.passive.imaginary, ← RealValued.im_result e.inner]
  html _ := rfl
  xml _ := rfl
  resultText _ _ := rfl
  setVariable _ _ := inner_forward _ _
  setAngleMode _ := inner_forward _ _
  setCalculating _ := inner_forward _ _
  setPlotting _ := inner_forward _ _
  wantsStop e := by
    show _ = (Observed.reached e.observed.options.stopAfter _ || _)
    rw [e.passive.stopAfter]
    rfl
  render := SamplePlotter.render_map parse_inner (fun e => Observed.calculate_inner e.passive)
    (fun _ => rfl)

end Watched

namespace Workbench

variable {ρ : Type}

/-- A workbench whose engine is under an observation that leaves it alone. -/
def watched (w : Workbench (Observed σ) ρ) (h : w.engine.options.Passive) :
    Workbench (Watched σ) ρ where
  engine := ⟨w.engine, h⟩
  plots := w.plots
  settings := w.settings
  cancel := w.cancel

/-- Compiling with an engine under an observation that leaves it alone gives the same markup as
with the engine inside, and leaves that one as it would be without. -/
theorem compile_observed [MathEngine σ] [RealValued σ] (source : String) (calculate : Bool)
    (inputs : List String) (w : Workbench (Observed σ) SamplePlotter)
    (hw : w.engine.options.Passive) :
    (w.map Observed.inner).compile source calculate inputs =
      ((w.compile source calculate inputs).1,
        (w.compile source calculate inputs).2.map Observed.inner) := by
  -- a watched engine behaves as the one and as the other
  have hinner : (w.map Observed.inner).compile source calculate inputs =
      (((w.watched hw).compile source calculate inputs).1,
        ((w.watched hw).compile source calculate inputs).2.map Watched.inner) :=
    Watched.inner_hom.compile source calculate inputs (w.watched hw)
  have hobserved : w.compile source calculate inputs =
      (((w.watched hw).compile source calculate inputs).1,
        ((w.watched hw).compile source calculate inputs).2.map Watched.observed) :=
    Watched.observed_hom.compile source calculate inputs (w.watched hw)
  rw [hinner, hobserved]
  rfl

/-- Having the calls of an engine noted changes nothing. -/
theorem compile_traced [MathEngine σ] [RealValued σ] (source : String) (calculate : Bool)
    (inputs : List String) (w : Workbench σ SamplePlotter) :
    w.compile source calculate inputs =
      (((w.map (Observed.start { traces := true })).compile source calculate inputs).1,
        ((w.map (Observed.start { traces := true })).compile source calculate inputs).2.map
          Observed.inner) :=
  compile_observed source calculate inputs (w.map (Observed.start { traces := true }))
    ⟨rfl, rfl, rfl, rfl⟩

end Workbench

end Worksheet
