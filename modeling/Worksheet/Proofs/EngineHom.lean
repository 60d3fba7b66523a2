/-
Engines that behave alike.

A map from the states of one engine to those of another respects the engines if every call
gives the same answers on both sides and leads to states that correspond again
(`EngineHom`).  A pass knows its engine by its calls only, so it commutes with such a map:
the markup is the same, and so is everything but the state of the engine.

* `EngineHom` — maps that respect two engines and the plotters that drive them;
* `EngineHom.map_step`, `map_tick`, `map_run` — a step and a whole pass commute with the map;
* `EngineHom.compile` — compiling gives the same markup and corresponding states.
-/
import Worksheet.Proofs.Trajectory

namespace Worksheet

variable {σ τ ρ α : Type}

/-- A reply with another state of the engine. -/
def Reply.map (f : σ → τ) (r : Reply σ) : Reply τ where
  outcome := r.outcome
  engine := f r.engine
  cancels := r.cancels

/-- A reply of a plotter with another state of the engine. -/
def PlotReply.map (f : σ → τ) (r : PlotReply ρ σ) : PlotReply ρ τ where
  outcome := r.outcome
  plotter := r.plotter
  engine := f r.engine
  cancels := r.cancels

/-- A map of states that respects two engines, and a plotter that drives both. -/
structure EngineHom (ρ : Type) [MathEngine σ] [MathEngine τ] [Plotter ρ σ] [Plotter ρ τ]
    (f : σ → τ) : Prop where
  parse : ∀ text inputs e, MathEngine.parse text inputs (f e) =
    ((MathEngine.parse text inputs e).1.map f, (MathEngine.parse text inputs e).2)
  calculate : ∀ e, MathEngine.calculate (f e) = (MathEngine.calculate e).map f
  result : ∀ e, MathEngine.result (f e) = MathEngine.result e
  html : ∀ e, MathEngine.html (f e) = MathEngine.html e
  xml : ∀ e, MathEngine.xml (f e) = MathEngine.xml e
  resultText : ∀ n e, MathEngine.resultText n (f e) = MathEngine.resultText n e
  setVariable : ∀ name value e,
    MathEngine.setVariable name value (f e) = f (MathEngine.setVariable name value e)
  setAngleMode : ∀ mode e, MathEngine.setAngleMode mode (f e) = f (MathEngine.setAngleMode mode e)
  setCalculating : ∀ b e, MathEngine.setCalculating b (f e) = f (MathEngine.setCalculating b e)
  setPlotting : ∀ b e, MathEngine.setPlotting b (f e) = f (MathEngine.setPlotting b e)
  wantsStop : ∀ e, MathEngine.wantsStop (f e) = MathEngine.wantsStop e
  render : ∀ request (plots : ρ) e,
    Plotter.render request plots (f e) = (Plotter.render request plots e).map f

/-- The sample plotters respect a map that respects reading, calculating and showing. -/
theorem SamplePlotter.render_map [MathEngine σ] [MathEngine τ] {f : σ → τ}
    (hparse : ∀ text inputs e, MathEngine.parse text inputs (f e) =
      ((MathEngine.parse text inputs e).1.map f, (MathEngine.parse text inputs e).2))
    (hcalculate : ∀ e, MathEngine.calculate (f e) = (MathEngine.calculate e).map f)
    (hhtml : ∀ e, MathEngine.html (f e) = MathEngine.html e)
    (request : PlotRequest) (plotter : SamplePlotter) (e : σ) :
    render request plotter (f e) = (render request plotter e).map f := by
  rcases plotter with ⟨requests, refusal⟩ | ⟨html, _ | expression⟩
  · rfl
  · rfl
  · unfold render showExpression
    dsimp only
    rw [hparse]
    generalize (MathEngine.parse expression .empty e).1 = parsed
    obtain ⟨outcome, engine, cancels⟩ := parsed
    dsimp only [Reply.map]
    rcases outcome with failure | _
    · rfl
    · dsimp only
      split
      · rw [hcalculate]
        dsimp only [Reply.map]
        rw [hhtml]
        rfl
      · rw [hhtml]
        rfl

/-! ### Pages, passes and workbenches of another engine -/

/-- A page with another state of the engine. -/
def Page.map (f : σ → τ) (p : Page σ ρ) : Page τ ρ where
  engine := f p.engine
  plots := p.plots
  settings := p.settings
  cancel := p.cancel
  inputs := p.inputs
  visible := p.visible
  mode := p.mode
  output := p.output

/-- An outcome on a page with another state of the engine. -/
def Page.carry (f : σ → τ) (r : α × Page σ ρ) : α × Page τ ρ :=
  (r.1, r.2.map f)

/-- A pass with another state of the engine. -/
def Pass.map (f : σ → τ) (s : Pass σ ρ) : Pass τ ρ where
  conditions := s.conditions
  loops := s.loops
  page := s.page.map f

/-- An outcome in a pass with another state of the engine. -/
def Pass.carry (f : σ → τ) (r : α × Pass σ ρ) : α × Pass τ ρ :=
  (r.1, r.2.map f)

/-- What follows from a step, with another state of the engine. -/
def Pass.Progress.map (f : σ → τ) : Pass.Progress σ ρ → Pass.Progress τ ρ
  | .done ending s => .done ending (s.map f)
  | .go next s => .go next (s.map f)

/-- A workbench with another state of the engine. -/
def Workbench.map (f : σ → τ) (w : Workbench σ ρ) : Workbench τ ρ where
  engine := f w.engine
  plots := w.plots
  settings := w.settings
  cancel := w.cancel

/-! A map of the engine leaves everything else where it is. -/

section Fields

variable (f : σ → τ) (p : Page σ ρ) (s : Pass σ ρ)

@[simp] theorem Page.engine_map : (p.map f).engine = f p.engine := rfl

@[simp] theorem Page.plots_map : (p.map f).plots = p.plots := rfl

@[simp] theorem Page.inputs_map : (p.map f).inputs = p.inputs := rfl

@[simp] theorem Page.visible_map : (p.map f).visible = p.visible := rfl

@[simp] theorem Page.mode_map : (p.map f).mode = p.mode := rfl

@[simp] theorem Pass.conditions_map : (s.map f).conditions = s.conditions := rfl

@[simp] theorem Pass.loops_map : (s.map f).loops = s.loops := rfl

@[simp] theorem Pass.page_map : (s.map f).page = s.page.map f := rfl

@[simp] theorem Pass.isLive_map : (s.map f).isLive = s.isLive := rfl

end Fields

theorem Page.map_writeIf (f : σ → τ) (condition : Bool) (pieces : List Piece) (p : Page σ ρ) :
    (p.map f).writeIf condition pieces = (p.writeIf condition pieces).map f := by
  cases condition with
  | true => rfl
  | false => rfl

/-! Loop words other than `#repeat` leave the engine alone. -/

namespace Pass

theorem map_loopWord (f : σ → τ) (v : Visit) (word : LoopWord) (s : Pass σ ρ) :
    { s.map f with page := (s.map f).page.previewLoopWord v word } =
      map f { s with page := s.page.previewLoopWord v word } := by
  rw [Page.previewLoopWord, Pass.page_map, Page.map_writeIf]
  rfl

theorem map_closeLoop (f : σ → τ) (v : Visit) (s : Pass σ ρ) :
    (s.map f).closeLoop v = carry f (s.closeLoop v) := by
  unfold closeLoop
  rw [map_loopWord]
  split
  · rfl
  rw [Pass.conditions_map]
  split
  · rfl
  · rfl

theorem map_leaveLoop (f : σ → τ) (v : Visit) (s : Pass σ ρ) :
    (s.map f).leaveLoop v = carry f (s.leaveLoop v) := by
  unfold leaveLoop
  rw [map_loopWord]
  split
  · rfl
  rw [Pass.isLive_map, Pass.loops_map]
  split
  · rcases s.loops.leave? with _ | loops
    · rfl
    · rfl
  · rfl

theorem map_continueLoop (f : σ → τ) (v : Visit) (s : Pass σ ρ) :
    (s.map f).continueLoop v = carry f (s.continueLoop v) := by
  unfold continueLoop
  rw [map_loopWord]
  split
  · rfl
  rw [Pass.isLive_map]
  split
  · rfl
  · rfl

end Pass

namespace EngineHom

variable [MathEngine σ] [MathEngine τ] [Plotter ρ σ] [Plotter ρ τ] {f : σ → τ}

/-! ### Calls of the engine and the plotter -/

theorem map_parse (hf : EngineHom ρ f) (text : String) (p : Page σ ρ) :
    (p.map f).parse text = Page.carry f (p.parse text) := by
  rw [Page.parse]
  rw [Page.engine_map, Page.inputs_map,
    hf.parse]
  rfl

theorem map_calculate (hf : EngineHom ρ f) (p : Page σ ρ) :
    (p.map f).calculate = Page.carry f p.calculate := by
  rw [Page.calculate, Page.engine_map, hf.calculate]
  rfl

theorem map_evaluate (hf : EngineHom ρ f) (text : String) (p : Page σ ρ) :
    (p.map f).evaluate text = Page.carry f (p.evaluate text) := by
  unfold Page.evaluate
  rw [hf.map_parse]
  rcases p.parse text with ⟨e | _, q⟩
  · rfl
  · dsimp only [Page.carry]
    rw [hf.map_calculate]
    rcases q.calculate with ⟨e | _, r⟩
    · rfl
    · dsimp only [Page.carry]
      rw [Page.engine_map, hf.result]

theorem map_renderPlot (hf : EngineHom ρ f) (request : PlotRequest) (plots : ρ) (p : Page σ ρ) :
    (p.map f).renderPlot request plots = Page.carry f (p.renderPlot request plots) := by
  unfold Page.renderPlot
  rw [Page.engine_map, hf.setPlotting, hf.render]
  rcases Plotter.render request plots (MathEngine.setPlotting true p.engine) with
    ⟨(message | payload) | html, plotter, engine, cancels⟩
  · dsimp only [PlotReply.map]
    rw [hf.setPlotting]
    rfl
  · rfl
  · dsimp only [PlotReply.map]
    rw [hf.setPlotting]
    rfl

/-! ### Lines that only touch the page -/

theorem map_expressionPiece (hf : EngineHom ρ f) (calculate : Bool) (p : Page σ ρ) :
    (p.map f).expressionPiece calculate = p.expressionPiece calculate := by
  rw [Page.expressionPiece, Page.engine_map, hf.resultText, hf.html, hf.xml]
  rfl

theorem map_showExpression (hf : EngineHom ρ f) (shows calculate : Bool) (p : Page σ ρ) :
    (p.map f).showExpression shows calculate =
      Page.carry f (p.showExpression shows calculate) := by
  unfold Page.showExpression
  rw [hf.map_expressionPiece]
  split
  · rcases p.expressionPiece calculate with e | piece
    · rfl
    · rfl
  · rfl

theorem map_expression (hf : EngineHom ρ f) (v : Visit) (shows isCondition : Bool)
    (text : String) (p : Page σ ρ) :
    (p.map f).expression v shows isCondition text =
      Page.carry f (p.expression v shows isCondition text) := by
  unfold Page.expression
  rw [hf.map_parse]
  rcases p.parse text with ⟨e | _, q⟩
  · rfl
  · dsimp only [Page.carry]
    rw [Page.mode_map]
    split
    · rw [hf.map_calculate]
      rcases q.calculate with ⟨e | _, r⟩
      · rfl
      · dsimp only [Page.carry]
        rw [hf.map_showExpression]
        dsimp only [Page.carry]
        rw [Page.engine_map, hf.result]
    · rw [hf.map_showExpression]
      rfl

theorem map_walk (hf : EngineHom ρ f) (v : Visit) (shows isCondition : Bool)
    (rest : List Segment) (value : Option Complex) (p : Page σ ρ) :
    (p.map f).walk v shows isCondition rest value =
      Page.carry f (p.walk v shows isCondition rest value) := by
  induction rest generalizing value p with
  | nil => rfl
  | cons s rest ih =>
    unfold Page.walk
    split
    · rw [hf.map_expression]
      rcases p.expression v shows isCondition s.text with ⟨(message | payload) | result, q⟩
      · exact ih none
          (q.write [.lineError (Page.quoted v.calculate s.chars) v.number message])
      · rfl
      · exact ih (result <|> value) q
    · rw [Page.map_writeIf]
      exact ih _ _

theorem map_showSegments (hf : EngineHom ρ f) (v : Visit) (word : Option BranchWord)
    (body : List Char) (p : Page σ ρ) :
    (p.map f).showSegments v word body = Page.carry f (p.showSegments v word body) := by
  unfold Page.showSegments
  dsimp only
  rw [Page.mode_map, Page.visible_map,
    Page.map_writeIf, hf.map_walk]
  generalize Page.walk v _ _ _ _ (p.writeIf _ _) = r
  rcases r with ⟨e | value, q⟩
  · rfl
  · dsimp only [Page.carry]
    rw [Page.map_writeIf]

theorem map_content (hf : EngineHom ρ f) (v : Visit) (stopped : Bool)
    (word : Option BranchWord) (body : List Char) (c : Conditions) (p : Page σ ρ) :
    (p.map f).content v stopped word body c =
      ((p.content v stopped word body c).1, (p.content v stopped word body c).2.1,
        (p.content v stopped word body c).2.2.map f) := by
  have hline : ∀ word, (p.map f).showLine v word body c =
      ((p.showLine v word body c).1, (p.showLine v word body c).2.1,
        (p.showLine v word body c).2.2.map f) := by
    intro word
    unfold Page.showLine
    rw [hf.map_showSegments]
    rcases p.showSegments v word body with ⟨e | value, q⟩
    · rfl
    · rfl
  unfold Page.content
  split
  · rfl
  rcases word with _ | word
  · exact hline none
  · dsimp only
    split
    · unfold Page.bareWord
      split
      · rfl
      · dsimp only
        rw [Page.map_writeIf]
        rfl
    split
    · rfl
    · exact hline (some word)

theorem map_applyToggle (hf : EngineHom ρ f) (calculate : Bool) (t : Toggle) (p : Page σ ρ) :
    (p.map f).applyToggle calculate t = (p.applyToggle calculate t).map f := by
  rcases t with (_ | _ | _ | _) | mode | mode | scope
  · rfl
  · rfl
  · rfl
  · rfl
  · rfl
  · show ({ p.map f with engine := MathEngine.setAngleMode mode (f p.engine) } : Page τ ρ) = _
    rw [hf.setAngleMode]
    rfl
  · rfl

theorem map_round (hf : EngineHom ρ f) (calculate : Bool) (argument : List Char)
    (p : Page σ ρ) :
    (p.map f).round calculate argument = Page.carry f (p.round calculate argument) := by
  unfold Page.round
  split
  · rfl
  split
  · rfl
  split
  · rw [hf.map_evaluate]
    rcases p.evaluate (String.ofList argument) with ⟨e | value, q⟩
    · rfl
    · rfl
  · rfl

theorem map_iterationCount (hf : EngineHom ρ f) (argument : List Char) (p : Page σ ρ) :
    (p.map f).iterationCount argument = Page.carry f (p.iterationCount argument) := by
  unfold Page.iterationCount
  rw [hf.map_evaluate]
  rcases p.evaluate (String.ofList argument) with ⟨e | value, q⟩
  · rfl
  · rfl

theorem map_previewRepeat (hf : EngineHom ρ f) (v : Visit) (argument : List Char)
    (p : Page σ ρ) :
    (p.map f).previewRepeat v argument = Page.carry f (p.previewRepeat v argument) := by
  unfold Page.previewRepeat
  rw [Page.visible_map]
  split
  · rfl
  split
  · rfl
  · rw [hf.map_parse]
    rcases p.parse (String.ofList argument) with ⟨(message | payload) | _, q⟩
    · rfl
    · rfl
    · dsimp only [Page.carry]
      rw [Page.engine_map, hf.html]
      rfl

theorem map_plot (hf : EngineHom ρ f) (v : Visit) (shown : Bool) (kind : PlotKind)
    (p : Page σ ρ) :
    (p.map f).plot v shown kind = Page.carry f (p.plot v shown kind) := by
  unfold Page.plot
  rw [Page.visible_map, Page.plots_map]
  split
  · rfl
  rcases p.plots with _ | plots
  · rfl
  · dsimp only
    rw [hf.map_renderPlot]
    rcases p.renderPlot ⟨kind, String.ofList v.chars, v.calculate⟩ plots with ⟨e | html, q⟩
    · rfl
    · rfl

/-! ### Steps -/

theorem map_enterLoop (hf : EngineHom ρ f) (v : Visit) (index : Nat) (argument : List Char)
    (s : Pass σ ρ) :
    (s.map f).enterLoop v index argument = Pass.carry f (s.enterLoop v index argument) := by
  unfold Pass.enterLoop
  dsimp only
  rw [Pass.page_map,
    Pass.conditions_map, Pass.loops_map]
  split
  · rw [hf.map_previewRepeat]
    rfl
  split
  · rfl
  split
  · rfl
  split
  · rfl
  · rw [hf.map_iterationCount]
    rcases s.page.iterationCount argument with ⟨fault | count, page⟩
    -- a count that is refused opens a block, and a crash does not
    · dsimp only [Page.carry]
      split
      · rfl
      · rfl
    · rfl

theorem map_visitContent (hf : EngineHom ρ f) (v : Visit) (word : Option BranchWord)
    (body : List Char) (s : Pass σ ρ) :
    (s.map f).visitContent v word body = Pass.carry f (s.visitContent v word body) := by
  unfold Pass.visitContent
  rw [Pass.conditions_map]
  rcases s.conditions.enter word with e | c
  · rfl
  · dsimp only
    rw [Pass.page_map, hf.map_content]
    rfl

theorem map_visitPlain (hf : EngineHom ρ f) (v : Visit) (index : Nat) (form : LineForm)
    (s : Pass σ ρ) :
    (s.map f).visitPlain v index form = Pass.carry f (s.visitPlain v index form) := by
  have hpage : ∀ {r : Except Fault Unit × Page τ ρ} {r' : Except Fault Unit × Page σ ρ},
      r = Page.carry f r' → (s.map f).onPage r = Pass.carry f (s.onPage r') := by
    rintro r r' rfl
    rfl
  cases form with
  | blank =>
    apply hpage
    rw [Pass.page_map, Page.map_writeIf]
    rfl
  | toggle t => exact hpage (by rw [Page.carry, ← hf.map_applyToggle]; rfl)
  | round argument => exact hpage (hf.map_round _ _ _)
  | plot kind => exact hpage (hf.map_plot _ _ _ _)
  | branch word rest => exact hf.map_visitContent v (some word) rest s
  | content => exact hf.map_visitContent v none v.chars s
  | loop word argument => exact hf.map_enterLoop v index argument s

/-- A step commutes with a map that respects the engines. -/
theorem map_step (hf : EngineHom ρ f) (calculate : Bool) (line : Line) (index : Nat)
    (s : Pass σ ρ) :
    (s.map f).step calculate line index = Pass.carry f (s.step calculate line index) := by
  unfold Pass.step
  rw [show (s.map f).visit calculate line index = s.visit calculate line index from rfl]
  dsimp only
  split
  · exact s.map_closeLoop f _
  · exact s.map_leaveLoop f _
  · exact s.map_continueLoop f _
  · rw [hf.map_visitPlain]
    rfl

theorem map_tick (hf : EngineHom ρ f) (calculate : Bool) (lines : Array Line) (cursor : Nat)
    (s : Pass σ ρ) :
    (s.map f).tick calculate lines cursor = (s.tick calculate lines cursor).map f := by
  -- an engine that asks for the pass to stop does so under the map too
  have hcancelled : (s.map f).isCancelled = s.isCancelled := by
    show (s.page.cancel.raised || MathEngine.wantsStop (f s.page.engine)) = _
    rw [hf.wantsStop]
    rfl
  unfold Pass.tick
  rw [hcancelled]
  rcases lines[cursor]? with _ | line
  · rfl
  · dsimp only
    split
    · rfl
    · rw [hf.map_step]
      rcases s.step calculate line cursor with ⟨fault | (_ | next | _), t⟩
      · dsimp only [Pass.carry, Pass.follow]
        split
        · rfl
        · rfl
      · rfl
      · rfl
      · rfl

/-- A whole pass commutes with a map that respects the engines. -/
theorem map_run (hf : EngineHom ρ f) (calculate : Bool) (lines : Array Line) (cursor : Nat)
    (s : Pass σ ρ) :
    (s.map f).run calculate lines cursor = Pass.carry f (s.run calculate lines cursor) := by
  -- along the steps of the pass on the right, which the pass on the left takes as well
  fun_induction Pass.run calculate lines cursor s with
  | case1 cursor s ending t h =>
    apply Pass.run_of_done
    rw [hf.map_tick, h]
    rfl
  | case2 cursor s next t h ih =>
    have hgo : (s.map f).tick calculate lines cursor = .go next (t.map f) := by
      rw [hf.map_tick, h]
      rfl
    rw [Pass.run_of_go hgo, ih]

/-- **A pass knows its engine by its calls.**  Compiling with either engine gives the same
markup, and workbenches that correspond. -/
theorem compile (hf : EngineHom ρ f) (source : String) (calculate : Bool)
    (inputs : List String) (w : Workbench σ ρ) :
    (w.map f).compile source calculate inputs =
      ((w.compile source calculate inputs).1, (w.compile source calculate inputs).2.map f) := by
  have hstart : Pass.start inputs ((w.map f).preparedEngine calculate) (w.map f) =
      (Pass.start inputs (w.preparedEngine calculate) w).map f := by
    rw [Workbench.preparedEngine]
    rw [show (w.map f).engine = f w.engine from rfl, hf.setCalculating, hf.setVariable]
    rfl
  rw [Workbench.compile, Workbench.pieces, hstart, hf.map_run]
  rfl

end EngineHom

end Worksheet
