/-
The plotting flag.

The engine is told when a plot begins to be rendered and when that is over, so between two lines
it should not take itself to be plotting.  A flagged engine keeps the last of what it was told,
and notes with each evaluation whether a plot was being rendered.  The flag is lowered at every
place of a pass, and only plot lines have the engine evaluate anything while it is raised.  There
is one way to end a pass with the flag raised: a plot whose rendering crashes ends the pass at
once, with the engine as the crash left it, and nobody tells the engine that the plot is over.

* `Flagged` — an engine that knows whether it is plotting;
* `Workbench.plotting_compile` — an engine with a flag of its own agrees with it;
* `Pass.CrashesOnPlot` — the rendering of a plot crashes;
* `Pass.step_flagged` — a visit to a line that is no plot;
* `Pass.plotting_step`, `Pass.Reaches.plotting` — the flag after a step, and at a place;
* `Workbench.plotting_released` — whole passes.
-/
import Worksheet.Engine.Observed
import Worksheet.Proofs.Invariants

namespace Worksheet

variable {σ ρ : Type}

/-! ### Engines with a flag -/

/-- An engine together with what it was told about plots, and what it was asked to evaluate,
the latest last, each with the flag as it was. -/
structure Flagged (σ : Type) where
  inner : σ
  plotting : Bool
  evaluations : List (Evaluation × Bool)

namespace Flagged

/-- An engine that is not plotting and was not asked to evaluate anything yet. -/
def start (inner : σ) : Flagged σ :=
  ⟨inner, false, []⟩

/-- The engine after an evaluation. -/
def note (e : Flagged σ) (evaluation : Evaluation) (inner : σ) : Flagged σ :=
  { e with inner, evaluations := e.evaluations ++ [(evaluation, e.plotting)] }

instance [MathEngine σ] : MathEngine (Flagged σ) where
  parse text inputs e :=
    let (r, rest) := MathEngine.parse text inputs e.inner
    (r.map (e.note (.parse text)), rest)
  calculate e := (MathEngine.calculate e.inner).map (e.note .calculate)
  result e := MathEngine.result e.inner
  html e := MathEngine.html e.inner
  xml e := MathEngine.xml e.inner
  resultText n e := MathEngine.resultText n e.inner
  setVariable name value e := { e with inner := MathEngine.setVariable name value e.inner }
  angleMode e := MathEngine.angleMode e.inner
  setAngleMode mode e := { e with inner := MathEngine.setAngleMode mode e.inner }
  setCalculating b e := { e with inner := MathEngine.setCalculating b e.inner }
  setPlotting b e := { e with inner := MathEngine.setPlotting b e.inner, plotting := b }
  wantsStop e := MathEngine.wantsStop e.inner

/-- The flag changes nothing: the engine inside is driven as it would be without. -/
theorem hom [MathEngine σ] : EngineHom SamplePlotter (inner : Flagged σ → σ) where
  parse _ _ _ := rfl
  calculate _ := rfl
  result _ := rfl
  html _ := rfl
  xml _ := rfl
  resultText _ _ := rfl
  setVariable _ _ _ := rfl
  setAngleMode _ _ := rfl
  setCalculating _ _ := rfl
  setPlotting _ _ := rfl
  wantsStop _ := rfl
  render := SamplePlotter.render_map (fun _ _ _ => rfl) (fun _ => rfl) (fun _ => rfl)

/-- From one state to another, the flag stays lowered, and so it is at each evaluation. -/
structure Idle (before after : Flagged σ) : Prop where
  plotting : after.plotting = false
  evaluations : ∃ added, after.evaluations = before.evaluations ++ added ∧
    ∀ e ∈ added, e.2 = false

theorem Idle.refl {e : Flagged σ} (h : e.plotting = false) : e.Idle e :=
  ⟨h, [], (List.append_nil _).symm, by simp⟩

theorem Idle.note {before e : Flagged σ} (h : before.Idle e) (evaluation : Evaluation)
    (inner : σ) : before.Idle (e.note evaluation inner) := by
  obtain ⟨hplotting, added, hadded, hlowered⟩ := h
  refine ⟨hplotting, added ++ [(evaluation, e.plotting)], ?_, ?_⟩
  · show e.evaluations ++ _ = _
    rw [hadded, List.append_assoc]
  · intro e' hmem
    rcases List.mem_append.mp hmem with hmem | hmem
    · exact hlowered e' hmem
    · rw [List.mem_singleton.mp hmem]
      exact hplotting

end Flagged

/-- A workbench whose engine is flagged, and not plotting. -/
def Workbench.flagged (w : Workbench σ ρ) : Workbench (Flagged σ) ρ :=
  w.map Flagged.start

/-- Compiling with a flagged engine gives the same markup, and leaves the engine inside as it
would be without. -/
theorem Workbench.compile_flagged [MathEngine σ] (source : String) (calculate : Bool)
    (inputs : List String) (w : Workbench σ SamplePlotter) :
    w.compile source calculate inputs =
      ((w.flagged.compile source calculate inputs).1,
        (w.flagged.compile source calculate inputs).2.map Flagged.inner) :=
  Flagged.hom.compile source calculate inputs w.flagged

/-! ### An engine with a flag of its own -/

namespace Arithmetic.Engine

/-- The engine for real arithmetic reads an expression without regard to its flag. -/
theorem parse_setPlotting (plotting : Bool) (text : String) (inputs : InputQueue) (e : Engine) :
    MathEngine.parse text inputs (MathEngine.setPlotting plotting e) =
      ((MathEngine.parse text inputs e).1.map (MathEngine.setPlotting plotting),
        (MathEngine.parse text inputs e).2) := by
  have hparse : parse text inputs { e with plotting } = ((parse text inputs e).1,
      { (parse text inputs e).2.1 with plotting }, (parse text inputs e).2.2) := by
    rw [parse, parse]
    rcases read text inputs with ⟨err | ⟨statement, display⟩, rest⟩
    · rfl
    · rfl
  show (Reply.mk (outcome (parse text inputs { e with plotting }).1)
    (parse text inputs { e with plotting }).2.1 false,
      (parse text inputs { e with plotting }).2.2) = _
  rw [hparse]
  rfl

/-- The engine for real arithmetic calculates without regard to its flag. -/
theorem calculate_setPlotting (plotting : Bool) (e : Engine) :
    MathEngine.calculate (MathEngine.setPlotting plotting e) =
      (MathEngine.calculate e).map (MathEngine.setPlotting plotting) := by
  have hcalculate : calculate { e with plotting } =
      ((calculate e).1, { (calculate e).2 with plotting }) := by
    rw [calculate, calculate]
    dsimp only
    split
    · rfl
    · split
      · rfl
      · rfl
  show Reply.mk (outcome (calculate { e with plotting }).1) (calculate { e with plotting }).2
    false = _
  rw [hcalculate]
  rfl

end Arithmetic.Engine

/-- A flagged engine, with the flag of the engine inside as the one beside it. -/
def Flagged.aligned (e : Flagged Arithmetic.Engine) : Flagged Arithmetic.Engine :=
  { e with inner := MathEngine.setPlotting e.plotting e.inner }

theorem Flagged.aligned_hom : EngineHom SamplePlotter aligned := by
  have hparse : ∀ text inputs (e : Flagged Arithmetic.Engine),
      MathEngine.parse text inputs e.aligned =
        ((MathEngine.parse text inputs e).1.map aligned, (MathEngine.parse text inputs e).2) := by
    intro text inputs e
    have hinner := e.inner.parse_setPlotting e.plotting text inputs
    show ((MathEngine.parse text inputs (MathEngine.setPlotting e.plotting e.inner)).1.map
        (e.aligned.note (.parse text)),
      (MathEngine.parse text inputs (MathEngine.setPlotting e.plotting e.inner)).2) = _
    rw [hinner]
    rfl
  have hcalculate : ∀ e : Flagged Arithmetic.Engine,
      MathEngine.calculate e.aligned = (MathEngine.calculate e).map aligned := by
    intro e
    have hinner := e.inner.calculate_setPlotting e.plotting
    show (MathEngine.calculate (MathEngine.setPlotting e.plotting e.inner)).map
      (e.aligned.note .calculate) = _
    rw [hinner]
    rfl
  exact
    { parse := hparse
      calculate := hcalculate
      result := fun _ => rfl
      html := fun _ => rfl
      xml := fun _ => rfl
      resultText := fun _ _ => rfl
      setVariable := fun _ _ _ => rfl
      setAngleMode := fun _ _ => rfl
      setCalculating := fun _ _ => rfl
      setPlotting := fun _ _ => rfl
      wantsStop := fun _ => rfl
      render := SamplePlotter.render_map hparse hcalculate (fun _ => rfl) }

/-- After a pass, the engine for real arithmetic takes itself to be plotting if it was told so
last. -/
theorem Workbench.plotting_compile (source : String) (calculate : Bool) (inputs : List String)
    (w : Workbench Arithmetic.Engine SamplePlotter) (h : w.engine.plotting = false) :
    (w.compile source calculate inputs).2.engine.plotting =
      (w.flagged.compile source calculate inputs).2.engine.plotting := by
  have hstart : w.flagged.map Flagged.aligned = w.flagged := by
    have hengine : MathEngine.setPlotting false w.engine = w.engine := by
      show { w.engine with plotting := false } = w.engine
      rw [← h]
    show { w.flagged with engine := Flagged.start (MathEngine.setPlotting false w.engine) } = _
    rw [hengine]
    rfl
  have haligned := Flagged.aligned_hom.compile source calculate inputs w.flagged
  rw [hstart] at haligned
  rw [w.compile_flagged]
  show (w.flagged.compile source calculate inputs).2.engine.inner.plotting = _
  rw [haligned]
  rfl

/-! ### Lines that are no plots -/

namespace Page

/-- What a visit does, plots aside, leaves the flag lowered. -/
theorem idle_invariant [MathEngine σ] (before : Flagged σ) (v : Visit) :
    Invariant v fun p : Page (Flagged σ) ρ => before.Idle p.engine where
  write _ hidle := hidle
  skipInputs _ hidle := hidle
  applyToggle := by
    intro p t hidle
    rcases t with (_ | _ | _ | _) | mode | mode | scope
    all_goals exact ⟨hidle.plotting, hidle.evaluations⟩
  setDecimals _ hidle := hidle
  parse text hidle := hidle.note (.parse text) _
  calculate hidle := hidle.note .calculate _

end Page

namespace Pass

variable [MathEngine σ] [Plotter ρ (Flagged σ)] {calculate : Bool} {line : Line} {i : Nat}
  {s : Pass (Flagged σ) ρ}

/-- A visit to a line that is no plot leaves the flag lowered, and has the engine evaluate only
with the flag lowered. -/
theorem step_flagged (hplot : ∀ kind, line.form ≠ .plot kind)
    (h : s.page.engine.plotting = false) :
    s.page.engine.Idle (s.step calculate line i).2.page.engine := by
  refine (Page.idle_invariant s.page.engine _).step (.refl h) ?_
  intro kind hkind
  exact absurd hkind (hplot kind)

end Pass

/-! ### Plots -/

namespace Page

variable [MathEngine σ] [Plotter ρ (Flagged σ)]

/-- The engine is told that a plot is over, unless rendering it crashes. -/
theorem plotting_renderPlot (request : PlotRequest) (plots : ρ) (p : Page (Flagged σ) ρ) :
    let reply := Plotter.render request plots (MathEngine.setPlotting true p.engine)
    (p.renderPlot request plots).1 = reply.outcome ∧
      ((p.renderPlot request plots).2.engine.plotting = false ∨ ∃ payload,
        reply.outcome = .error (.crashed payload) ∧
          (p.renderPlot request plots).2.engine = reply.engine) := by
  rw [renderPlot]
  generalize Plotter.render request plots (MathEngine.setPlotting true p.engine) = reply
  obtain ⟨(message | payload) | html, plotter, engine, cancels⟩ := reply
  · exact ⟨rfl, .inl rfl⟩
  · exact ⟨rfl, .inr ⟨payload, rfl, rfl⟩⟩
  · exact ⟨rfl, .inl rfl⟩

theorem engine_renderPlot_of_crash {request : PlotRequest} {plots : ρ} {p : Page (Flagged σ) ρ}
    {payload : Payload}
    (h : (Plotter.render request plots (MathEngine.setPlotting true p.engine)).outcome =
      .error (.crashed payload)) :
    (p.renderPlot request plots).2.engine =
      (Plotter.render request plots (MathEngine.setPlotting true p.engine)).engine := by
  rw [renderPlot]
  generalize Plotter.render request plots (MathEngine.setPlotting true p.engine) = reply at h ⊢
  obtain ⟨outcome, plotter, engine, cancels⟩ := reply
  obtain rfl : outcome = .error (.crashed payload) := h
  rfl

end Page

namespace Pass

variable [MathEngine σ] [Plotter ρ (Flagged σ)] {calculate : Bool} {line : Line}
  {s : Pass (Flagged σ) ρ}

/-- At a line, a plot is to be shown, and its rendering crashes and leaves an engine behind. -/
def CrashesOnPlot (calculate : Bool) (line : Line) (s : Pass (Flagged σ) ρ)
    (engine : Flagged σ) : Prop :=
  ∃ kind plots payload, line.form = .plot kind ∧
    (s.page.visible && (!calculate || s.isLive)) = true ∧ s.page.plots = some plots ∧
    let reply := Plotter.render ⟨kind, line.text, calculate⟩ plots
      (MathEngine.setPlotting true s.page.engine)
    reply.outcome = .error (.crashed payload) ∧ reply.engine = engine

/-- A plot that is not to be shown, or has no plotter, leaves the engine alone. -/
theorem engine_of_no_plot {kind : PlotKind} {text : List Char} (i : Nat)
    (h : ¬(s.page.visible && (!calculate || s.isLive)) = true ∨ s.page.plots = none) :
    (s.step calculate ⟨text, .plot kind⟩ i).2.page.engine = s.page.engine := by
  show (s.page.plot (s.visit calculate ⟨text, .plot kind⟩ i) s.isLive kind).2.engine = _
  rw [Page.plot]
  split
  · rfl
  next hshown =>
  rcases h with hhidden | hplots
  · rw [Bool.not_eq_true] at hhidden
    have hnot : (!(s.page.visible && (!calculate || s.isLive))) = true := by
      rw [hhidden]
      rfl
    exact absurd hnot hshown
  · rw [hplots]

/-- A plot that is to be shown is rendered, if there is a plotter. -/
theorem plot_of_shown (kind : PlotKind) {plots : ρ} (text : List Char) (i : Nat)
    (hshown : (s.page.visible && (!calculate || s.isLive)) = true)
    (hplots : s.page.plots = some plots) :
    let r := s.page.renderPlot ⟨kind, String.ofList text, calculate⟩ plots
    (s.step calculate ⟨text, .plot kind⟩ i).2.page.engine = r.2.engine ∧
      ∀ e, r.1 = .error e → (s.step calculate ⟨text, .plot kind⟩ i).1 = .error e.fault := by
  have hstep : ∀ v : Visit, v.calculate = calculate → v.chars = text →
      s.page.plot v s.isLive kind =
        match s.page.renderPlot ⟨kind, String.ofList text, calculate⟩ plots with
        | (.error e, p) => (.error e.fault, p)
        | (.ok html, p) => (.ok (), p.write [.markup html v.anchor]) := by
    rintro v rfl rfl
    rw [Page.plot, hplots, hshown, Bool.not_true, if_neg Bool.false_ne_true]
    dsimp only
    rcases s.page.renderPlot ⟨kind, String.ofList v.chars, v.calculate⟩ plots with ⟨e | html, q⟩
    · rfl
    · rfl
  have hplot := hstep (s.visit calculate ⟨text, .plot kind⟩ i) rfl rfl
  show (s.page.plot (s.visit calculate ⟨text, .plot kind⟩ i) s.isLive kind).2.engine = _ ∧
    ∀ e, _ → ((s.page.plot (s.visit calculate ⟨text, .plot kind⟩ i) s.isLive kind).1.map
      fun _ => Flow.next) = _
  rw [hplot]
  rcases s.page.renderPlot ⟨kind, String.ofList text, calculate⟩ plots with ⟨e | html, q⟩
  · refine ⟨rfl, ?_⟩
    intro e' he
    obtain rfl := Except.error.inj he
    rfl
  · refine ⟨rfl, ?_⟩
    intro e' he
    cases he

/-- A crash ends the pass, and the engine stays as the crash left it. -/
theorem step_of_crash {engine : Flagged σ} (h : s.CrashesOnPlot calculate line engine) (i : Nat) :
    ∃ fault, (s.step calculate line i).1 = .error fault ∧ fault.isFatal = true ∧
      (s.step calculate line i).2.page.engine = engine := by
  obtain ⟨text, form⟩ := line
  obtain ⟨kind, plots, payload, rfl, hshown, hplots, houtcome, rfl⟩ := h
  obtain ⟨hengine, hfault⟩ := plot_of_shown kind text i hshown hplots
  have hcrash := (Page.plotting_renderPlot _ plots s.page).1.trans houtcome
  exact ⟨_, hfault _ hcrash, rfl, hengine.trans (Page.engine_renderPlot_of_crash houtcome)⟩

/-- After a step the flag is lowered, if it was so before, unless the rendering of a plot
crashed. -/
theorem plotting_step (calculate : Bool) (line : Line) (i : Nat)
    (h : s.page.engine.plotting = false) :
    (s.step calculate line i).2.page.engine.plotting = false ∨
      s.CrashesOnPlot calculate line (s.step calculate line i).2.page.engine := by
  by_cases hform : ∃ kind, line.form = .plot kind
  · obtain ⟨text, form⟩ := line
    obtain ⟨kind, rfl⟩ := hform
    by_cases hshown : (s.page.visible && (!calculate || s.isLive)) = true
    · rcases hplots : s.page.plots with _ | plots
      · rw [engine_of_no_plot i (.inr hplots)]
        exact .inl h
      · obtain ⟨hengine, -⟩ := plot_of_shown kind text i hshown hplots
        rw [hengine]
        obtain ⟨-, hlowered | ⟨payload, houtcome, hleft⟩⟩ :=
          Page.plotting_renderPlot ⟨kind, String.ofList text, calculate⟩ plots s.page
        · exact .inl hlowered
        · exact .inr ⟨kind, plots, payload, rfl, hshown, hplots, houtcome, hleft.symm⟩
    · rw [engine_of_no_plot i (.inl hshown)]
      exact .inl h
  · exact .inl (step_flagged (fun kind hkind => hform ⟨kind, hkind⟩) h).plotting

/-! ### Whole passes -/

variable {lines : Array Line}

omit [MathEngine σ] [Plotter ρ (Flagged σ)] in
/-- What follows from a step leaves the engine alone. -/
theorem engine_follow (line : Line) (cursor : Nat) (r : Except Fault Flow × Pass σ ρ) :
    (∃ ending t, follow line cursor r = .done ending t ∧ t.page.engine = r.2.page.engine) ∨
      ∃ next t, follow line cursor r = .go next t ∧ t.page.engine = r.2.page.engine :=
  Page.invariant_follow (I := fun p => p.engine = r.2.page.engine) (fun _ hp => hp) rfl

/-- At every place of a pass the flag is lowered, if it was so at first. -/
theorem Reaches.plotting {i j : Nat} {s t : Pass (Flagged σ) ρ}
    (hr : Reaches calculate lines i s j t) (h : s.page.engine.plotting = false) :
    t.page.engine.plotting = false := by
  induction hr with
  | here => exact h
  | @onward j _ t u _ htick ih =>
    obtain ⟨line, -, -, hfollow⟩ := tick_go htick
    have hengine : u.page.engine = (t.step calculate line j).2.page.engine := by
      rcases engine_follow line j (t.step calculate line j) with
        ⟨_, _, hdone, -⟩ | ⟨_, _, hgo, hengine⟩
      · rw [hfollow] at hdone
        cases hdone
      · rw [hfollow] at hgo
        cases hgo
        exact hengine
    rw [hengine]
    rcases plotting_step calculate line j ih with hlowered | hcrash
    · exact hlowered
    · -- a crash would have ended the pass
      obtain ⟨fault, hfault, hfatal, -⟩ := step_of_crash hcrash j
      rw [(follow_go_inputs hfollow).2 fault hfault] at hfatal
      cases hfatal

/-- Where a pass ends, the flag is lowered unless the rendering of a plot crashed just now. -/
theorem plotting_done {i : Nat} {s t : Pass (Flagged σ) ρ} {ending : Ending}
    (h : s.page.engine.plotting = false) (ht : s.tick calculate lines i = .done ending t) :
    t.page.engine.plotting = false ∨
      ∃ line, lines[i]? = some line ∧ s.isCancelled = false ∧
        s.CrashesOnPlot calculate line t.page.engine := by
  rw [tick] at ht
  rcases hl : lines[i]? with _ | line
  · rw [hl] at ht
    cases ht
    exact .inl h
  rw [hl] at ht
  dsimp only at ht
  split at ht
  · cases ht
    exact .inl h
  next hquiet =>
  have hengine : t.page.engine = (s.step calculate line i).2.page.engine := by
    rcases engine_follow line i (s.step calculate line i) with
      ⟨_, _, hdone, hengine⟩ | ⟨_, _, hgo, -⟩
    · rw [ht] at hdone
      cases hdone
      exact hengine
    · rw [ht] at hgo
      cases hgo
  rw [hengine]
  rcases plotting_step calculate line i h with hlowered | hcrash
  · exact .inl hlowered
  · exact .inr ⟨line, rfl, by simpa using hquiet, hcrash⟩

/-- A pass that comes to a plot whose rendering crashes is aborted there, with the engine as the
crash left it. -/
theorem run_of_crash {i j : Nat} {s t : Pass (Flagged σ) ρ} {engine : Flagged σ}
    (hr : Reaches calculate lines i s j t) (hl : lines[j]? = some line)
    (hquiet : t.isCancelled = false) (hcrash : t.CrashesOnPlot calculate line engine) :
    (s.run calculate lines i).1 = .aborted ∧
      (s.run calculate lines i).2.page.engine = engine := by
  obtain ⟨fault, hfault, hfatal, hengine⟩ := step_of_crash hcrash j
  have hdone : t.tick calculate lines j = .done .aborted
      ((t.step calculate line j).2.write [.notice fault.message]) := by
    rw [tick, hl]
    dsimp only
    rw [hquiet, if_neg Bool.false_ne_true]
    generalize t.step calculate line j = r at hfault ⊢
    obtain ⟨outcome, u⟩ := r
    obtain rfl : outcome = .error fault := hfault
    rw [follow, if_pos hfatal]
  rw [run_eq_of_reaches hr, run_of_done hdone]
  exact ⟨rfl, hengine⟩

end Pass

namespace Workbench

section

variable [MathEngine σ] [Plotter ρ (Flagged σ)]

/-- **The plotting flag is released, unless rendering a plot crashes.**  In every pass, with any
engine and any plotter, if the flag is lowered at first:

* it is lowered at every place, and a visit to a line that is no plot leaves it lowered and
  makes no evaluation while it is raised;
* it is lowered at the end, unless the pass came to a plot whose rendering crashed;
* a pass that comes to such a plot is aborted there, and the engine is what the crash left
  behind, with the flag raised unless the plotter itself had lowered it. -/
theorem plotting_released (source : String) (calculate : Bool) (inputs : List String)
    (w : Workbench σ ρ) :
    let lines := Sheet.lines source
    let w := w.flagged
    let r := (w.startPass calculate inputs).run calculate lines 0
    (∀ i s, w.ComesTo source calculate inputs i s → s.page.engine.plotting = false ∧
      ∀ line, lines[i]? = some line → (∀ kind, line.form ≠ .plot kind) →
        s.page.engine.Idle (s.step calculate line i).2.page.engine) ∧
    (r.2.page.engine.plotting = false ∨ ∃ i s line, w.ComesTo source calculate inputs i s ∧
      lines[i]? = some line ∧ s.isCancelled = false ∧
      s.CrashesOnPlot calculate line r.2.page.engine) ∧
    ∀ i s line engine, w.ComesTo source calculate inputs i s → lines[i]? = some line →
      s.isCancelled = false → s.CrashesOnPlot calculate line engine →
      r.1 = .aborted ∧ r.2.page.engine = engine := by
  have hstart : (w.flagged.startPass calculate inputs).page.engine.plotting = false := rfl
  refine ⟨?_, ?_, ?_⟩
  · intro i s hs
    have hlowered := Pass.Reaches.plotting hs hstart
    exact ⟨hlowered, fun line _ hplot => Pass.step_flagged hplot hlowered⟩
  · obtain ⟨j, t, hreaches, hdone⟩ := Pass.exists_reaches_done calculate (Sheet.lines source) 0
      (w.flagged.startPass calculate inputs)
    rcases Pass.plotting_done (hreaches.plotting hstart) hdone with hlowered |
      ⟨line, hl, hquiet, hcrash⟩
    · exact .inl hlowered
    · exact .inr ⟨j, t, line, hreaches, hl, hquiet, hcrash⟩
  · intro i s line engine hs hl hquiet hcrash
    exact Pass.run_of_crash hs hl hquiet hcrash

end

/-- A workbench whose engine crashes on its first calculation, with a plotter that has the engine
calculate. -/
def explosive : Workbench (Observed Arithmetic.Engine) SamplePlotter where
  engine := .start { crash := some (1, some "engine exploded.") } .initial
  plots := some (.constant "<img />" (some "1"))
  settings := .initial
  cancel := .lowered

/-- The plot crashes, and the engine takes itself to be plotting when the pass is over. -/
theorem plotting_left_raised :
    explosive.engine.inner.plotting = false ∧
      ((explosive.startPass true []).run true (Sheet.lines "$plot\x7bx\x7d") 0).1 = .aborted ∧
      (explosive.compile "$plot\x7bx\x7d" true []).2.engine.inner.plotting = true := by
  have hraised : (match Pass.after true (Sheet.lines "$plot\x7bx\x7d") 1 0
      (explosive.startPass true []) with
      | .done .aborted s => s.page.engine.inner.plotting
      | _ => false) = true := by
    decide +kernel
  rcases hafter : Pass.after true (Sheet.lines "$plot\x7bx\x7d") 1 0
    (explosive.startPass true []) with ⟨_ | _ | _ | _, s⟩ | ⟨i, s⟩
  case done.aborted =>
    rw [hafter] at hraised
    have hrun := Pass.run_of_after hafter
    refine ⟨rfl, by rw [hrun], ?_⟩
    show ((explosive.startPass true []).run true (Sheet.lines "$plot\x7bx\x7d")
      0).2.page.engine.inner.plotting = true
    rw [hrun]
    exact hraised
  all_goals
    rw [hafter] at hraised
    cases hraised

end Workbench

end Worksheet
