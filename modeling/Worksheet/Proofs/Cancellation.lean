/-
Passes that are cancelled.

A pass looks at its flag, and asks its engine, before each line; if either wants it to stop, it
stops there and shows what it has.  The same pass without any cancellation is the one of an
engine that makes every call as before, but whose wishes are not heard.  The two passes are in
step until the first wish, so what a cancelled pass shows is a beginning of what the other one
writes, whatever the lines in between do and wherever the wish comes from: the flag as it was
given, somebody outside, or the engine and the plotter themselves.

* `Unheard` — an engine that is not heard when it wants a pass to stop;
* `Page.hear` — a page with the engine heard again;
* `Pass.hears_tick` — the two passes are in step while nothing is wanted;
* `Workbench.cancelled_pass_beginning` — whole passes.
-/
import Worksheet.Proofs.Invariants
import Worksheet.Proofs.Written

namespace Worksheet

variable {σ ρ : Type}

/-! ### Engines that are not heard -/

/-- An engine that is not heard when it wants a pass to be cancelled, together with whether one
of its calls has wanted that. -/
structure Unheard (σ : Type) where
  inner : σ
  asked : Bool

namespace Unheard

/-- A reply that keeps its wish to itself. -/
def reply (e : Unheard σ) (r : Reply σ) : Reply (Unheard σ) where
  outcome := r.outcome
  engine := ⟨r.engine, e.asked || r.cancels⟩

/-- A reply of a plotter that keeps its wish to itself. -/
def plotReply (e : Unheard σ) (r : PlotReply ρ σ) : PlotReply ρ (Unheard σ) where
  outcome := r.outcome
  plotter := r.plotter
  engine := ⟨r.engine, e.asked || r.cancels⟩

instance [MathEngine σ] : MathEngine (Unheard σ) where
  parse text inputs e :=
    let (r, rest) := MathEngine.parse text inputs e.inner
    (e.reply r, rest)
  calculate e := e.reply (MathEngine.calculate e.inner)
  result e := MathEngine.result e.inner
  html e := MathEngine.html e.inner
  xml e := MathEngine.xml e.inner
  resultText n e := MathEngine.resultText n e.inner
  setVariable name value e := { e with inner := MathEngine.setVariable name value e.inner }
  angleMode e := MathEngine.angleMode e.inner
  setAngleMode mode e := { e with inner := MathEngine.setAngleMode mode e.inner }
  setCalculating b e := { e with inner := MathEngine.setCalculating b e.inner }
  setPlotting b e := { e with inner := MathEngine.setPlotting b e.inner }
  wantsStop _ := false

instance [Plotter ρ σ] : Plotter ρ (Unheard σ) where
  render request plots e := e.plotReply (Plotter.render request plots e.inner)

end Unheard

/-- A workbench whose engine is not heard, and whose flag is lowered. -/
def Workbench.unheard (w : Workbench σ ρ) : Workbench (Unheard σ) ρ where
  engine := ⟨w.engine, w.cancel.raised⟩
  plots := w.plots
  settings := w.settings
  cancel := .lowered

/-! ### Hearing them again -/

namespace Page

/-- A page with the engine heard again: the flag is raised if a call has wanted that. -/
def hear (q : Page (Unheard σ) ρ) : Page σ ρ :=
  { q.map Unheard.inner with cancel := ⟨q.engine.asked⟩ }

/-- The first page is the second one with the engine heard again, and nothing has raised the
flag of the second. -/
def Hears (p : Page σ ρ) (q : Page (Unheard σ) ρ) : Prop :=
  p = q.hear ∧ q.cancel = .lowered

variable [MathEngine σ]

/-- A visit does the same whether the engine is heard or not. -/
theorem hears_coupling (v : Visit) : Coupling v (Hears (σ := σ) (ρ := ρ)) where
  visible := by
    rintro _ q ⟨rfl, -⟩
    rfl
  mode := by
    rintro _ q ⟨rfl, -⟩
    rfl
  write := by
    rintro _ q pieces ⟨rfl, hlowered⟩ -
    exact ⟨rfl, hlowered⟩
  skipInputs := by
    rintro _ q count ⟨rfl, hlowered⟩
    exact ⟨rfl, hlowered⟩
  applyToggle := by
    rintro _ q t ⟨rfl, hlowered⟩
    rcases t with (_ | _ | _ | _) | mode | mode | scope
    all_goals exact ⟨rfl, hlowered⟩
  setDecimals := by
    rintro _ q decimals ⟨rfl, hlowered⟩
    exact ⟨rfl, hlowered⟩
  parse := by
    rintro _ q text ⟨rfl, hlowered⟩
    exact ⟨rfl, rfl, (CancelFlag.raiseIf_false _).trans hlowered⟩
  parsed := by
    rintro _ q text ⟨rfl, -⟩ -
    exact ⟨rfl, rfl⟩
  calculate := by
    rintro _ q - ⟨rfl, hlowered⟩
    exact ⟨rfl, rfl, (CancelFlag.raiseIf_false _).trans hlowered⟩
  calculated := by
    rintro _ q - ⟨rfl, -⟩
    exact ⟨rfl, rfl⟩

variable [Plotter ρ σ]

theorem hears_renderPlot {p : Page σ ρ} {q : Page (Unheard σ) ρ} (h : Hears p q)
    (request : PlotRequest) (plots : ρ) :
    SameOutcome Hears (p.renderPlot request plots) (q.renderPlot request plots) := by
  obtain ⟨rfl, hlowered⟩ := h
  have hreply : Plotter.render request plots (MathEngine.setPlotting true q.engine) =
      (MathEngine.setPlotting true q.engine).plotReply
        (Plotter.render request plots (MathEngine.setPlotting true q.hear.engine)) := rfl
  rw [renderPlot, renderPlot, hreply]
  generalize Plotter.render request plots (MathEngine.setPlotting true q.hear.engine) = reply
  obtain ⟨(message | payload) | html, plotter, engine, cancels⟩ := reply
  all_goals exact ⟨rfl, rfl, (CancelFlag.raiseIf_false _).trans hlowered⟩

theorem hears_plot {p : Page σ ρ} {q : Page (Unheard σ) ρ} (h : Hears p q) (v : Visit)
    (live : Bool) (kind : PlotKind) :
    SameOutcome Hears (p.plot v live kind) (q.plot v live kind) := by
  have hplots : p.plots = q.plots := by
    rw [h.1]
    rfl
  rw [plot, plot, (hears_coupling v).visible h, hplots]
  split
  · exact ⟨rfl, h⟩
  rcases q.plots with _ | plots
  · exact ⟨rfl, h⟩
  obtain ⟨outcome, p₁, q₁, hp₁, hq₁, hrender⟩ :=
    (hears_renderPlot h ⟨kind, String.ofList v.chars, v.calculate⟩ plots).exists_eq
  dsimp only
  rw [hp₁, hq₁]
  rcases outcome with e | html
  · exact ⟨rfl, hrender⟩
  · exact ⟨rfl, (hears_coupling v).write hrender (by simp [Piece.FitsLine])⟩

end Page

namespace Pass

variable [MathEngine σ]

/-- Whether a pass would be cancelled if its engine were heard: one of the calls wanted that, or
the engine does so now. -/
def wantsStop (t : Pass (Unheard σ) ρ) : Bool :=
  t.page.engine.asked || MathEngine.wantsStop t.page.engine.inner

theorem isCancelled_of_hears {s : Pass σ ρ} {t : Pass (Unheard σ) ρ}
    (h : Coupled Page.Hears s t) : s.isCancelled = t.wantsStop := by
  obtain ⟨-, -, hpage, -⟩ := h
  rw [isCancelled, hpage]
  rfl

variable [Plotter ρ σ] {calculate : Bool} {lines : Array Line} {i j n : Nat} {s : Pass σ ρ}
  {t u : Pass (Unheard σ) ρ} {raises : Nat → Bool}

/-- While nothing is wanted, the passes make the same step. -/
theorem hears_tick (h : Coupled Page.Hears s t) (hquiet : t.wantsStop = false)
    (calculate : Bool) (lines : Array Line) (i : Nat) :
    (s.tick calculate lines i).Coupled Page.Hears (t.tick calculate lines i) := by
  have hunheard : t.isCancelled = false := by
    rw [isCancelled, h.page.2]
    rfl
  rw [tick, tick]
  rcases lines[i]? with _ | line
  · exact .done .completed h
  dsimp only
  rw [isCancelled_of_hears h, hquiet, hunheard, if_neg Bool.false_ne_true,
    if_neg Bool.false_ne_true]
  have hvisit := Page.hears_coupling (σ := σ) (ρ := ρ) (s.visit calculate line i)
  refine coupled_follow ?_ (hvisit.step h ?_)
  · intro p q pieces hpq hpieces
    exact hvisit.write hpq hpieces
  · intro kind _
    rw [h.isLive]
    exact Page.hears_plot h.page _ t.isLive kind

/-- While nothing is wanted, a pass goes where the pass without cancellation goes. -/
theorem runUnder_of_quiet (h : Coupled Page.Hears s t)
    (hplace : (after calculate lines n i t).place? = some (j, u))
    (hquiet : ∀ k < n, ∀ i' t', (after calculate lines k i t).place? = some (i', t') →
      raises k = false ∧ t'.wantsStop = false) :
    ∃ s', Coupled Page.Hears s' u ∧ s.runUnder raises calculate lines i =
      s'.runUnder (fun k => raises (n + k)) calculate lines j := by
  induction n generalizing raises i s t with
  | zero =>
    cases hplace
    refine ⟨s, h, ?_⟩
    simp
  | succ n ih =>
    obtain ⟨hraises, hwants⟩ := hquiet 0 (by omega) i t rfl
    have htick := hears_tick h hwants calculate lines i
    rw [after] at hplace
    rcases hgo : t.tick calculate lines i with ⟨ending, t'⟩ | ⟨i', t'⟩
    · rw [hgo] at hplace
      cases hplace
    rw [hgo] at hplace htick
    generalize hgo' : s.tick calculate lines i = y at htick
    cases htick with
    | @go s' _ _ hs' =>
      have hlater : ∀ k < n, ∀ i'' t'', (after calculate lines k i' t').place? = some (i'', t'') →
          raises (k + 1) = false ∧ t''.wantsStop = false := by
        intro k hk i'' t'' hplace'
        refine hquiet (k + 1) (by omega) i'' t'' ?_
        rw [after, hgo]
        exact hplace'
      obtain ⟨s'', hs'', hrun⟩ := ih hs' hplace hlater
      refine ⟨s'', hs'', ?_⟩
      rw [runUnder_of_go (s := s) (j := i') (t := s') (by rw [hraises, interrupt_false, hgo']),
        hrun]
      simp only [Nat.add_right_comm]

/-- While nothing is ever wanted, the pass ends as the pass without cancellation. -/
theorem runUnder_of_never_wanted (h : Coupled Page.Hears s t)
    (hquiet : ∀ n j u, (after calculate lines n i t).place? = some (j, u) →
      raises n = false ∧ u.wantsStop = false) :
    SameOutcome (Coupled Page.Hears) (s.runUnder raises calculate lines i)
      (t.run calculate lines i) := by
  obtain ⟨hraises, hwants⟩ := hquiet 0 i t rfl
  have htick := hears_tick h hwants calculate lines i
  fun_induction run calculate lines i t generalizing s raises with
  | case1 i t ending t' hdone =>
    rw [hdone] at htick
    generalize hdone' : s.tick calculate lines i = y at htick
    cases htick with
    | done _ hend =>
      rw [runUnder_of_done (by rw [hraises, interrupt_false, hdone'])]
      exact ⟨rfl, hend⟩
  | case2 i t i' t' hgo ih =>
    rw [hgo] at htick
    generalize hgo' : s.tick calculate lines i = y at htick
    cases htick with
    | @go s' _ _ hs' =>
      rw [runUnder_of_go (by rw [hraises, interrupt_false, hgo'])]
      have hlater : ∀ n j u, (after calculate lines n i' t').place? = some (j, u) →
          raises (n + 1) = false ∧ u.wantsStop = false := by
        intro n j u hplace
        refine hquiet (n + 1) j u ?_
        rw [after, hgo]
        exact hplace
      obtain ⟨hraises', hwants'⟩ := hlater 0 i' t' rfl
      exact ih hs' hlater hraises' hwants' (hears_tick hs' hwants' calculate lines i')

/-- Where something is wanted for the first time, the pass ends as cancelled. -/
theorem runUnder_of_wanted (h : Coupled Page.Hears s u) (calculate : Bool)
    (hj : j < lines.size) (hwanted : raises 0 = true ∨ u.wantsStop = true) :
    s.runUnder raises calculate lines j = (.cancelled, s.interrupt (raises 0)) := by
  have hcancelled : (s.interrupt (raises 0)).isCancelled = true := by
    have hsplit : (s.interrupt (raises 0)).isCancelled = (s.isCancelled || raises 0) := by
      show (s.page.cancel.raised || raises 0 || MathEngine.wantsStop s.page.engine) =
        (s.page.cancel.raised || MathEngine.wantsStop s.page.engine || raises 0)
      rw [Bool.or_right_comm]
    rw [hsplit, isCancelled_of_hears h, Bool.or_eq_true]
    exact hwanted.symm
  apply runUnder_of_done
  rw [tick, Array.getElem?_eq_getElem hj]
  dsimp only
  rw [if_pos hcancelled]

end Pass

/-! ### What has been written -/

namespace Pass

/-- The state that a step or a number of steps led to. -/
def Progress.state : Progress σ ρ → Pass σ ρ
  | .done _ s => s
  | .go _ s => s

variable [MathEngine σ] [Plotter ρ σ]

/-- A step only adds to the output. -/
theorem output_tick (calculate : Bool) (lines : Array Line) (i : Nat) (s : Pass σ ρ) : ∃ added,
    (s.tick calculate lines i).state.page.output.toList = s.page.output.toList ++ added := by
  have hnothing : ∃ added, s.page.output.toList = s.page.output.toList ++ added :=
    ⟨[], (List.append_nil _).symm⟩
  rw [tick]
  split
  · exact hnothing
  split
  · exact hnothing
  next line _ _ =>
  have hreport : Page.Writes none (s.step calculate line i).2.page
      (follow line i (s.step calculate line i)).state.page := by
    rcases writes_follow line i (s.step calculate line i) with ⟨_, _, heq, h⟩ | ⟨_, _, heq, h⟩
    · rw [heq]
      exact h
    · rw [heq]
      exact h
  obtain ⟨added, hadded, -⟩ := (writes_step calculate line i s).trans_none hreport
  exact ⟨added, hadded⟩

/-- More steps only add to the output. -/
theorem output_after (calculate : Bool) (lines : Array Line) {n m : Nat} (h : n ≤ m) (i : Nat)
    (s : Pass σ ρ) : ∃ added,
    (after calculate lines m i s).state.page.output.toList =
      (after calculate lines n i s).state.page.output.toList ++ added := by
  have hnext : ∀ n i (s : Pass σ ρ), ∃ added,
      (after calculate lines (n + 1) i s).state.page.output.toList =
        (after calculate lines n i s).state.page.output.toList ++ added := by
    intro n
    induction n with
    | zero =>
      intro i s
      have htick := output_tick calculate lines i s
      rw [after, after]
      rcases hgo : s.tick calculate lines i with ⟨ending, t⟩ | ⟨j, t⟩
      · rwa [hgo] at htick
      · rwa [hgo] at htick
    | succ n ih =>
      intro i s
      rw [after, after]
      rcases s.tick calculate lines i with ⟨ending, t⟩ | ⟨j, t⟩
      · exact ⟨[], (List.append_nil _).symm⟩
      · exact ih j t
  induction h with
  | refl => exact ⟨[], (List.append_nil _).symm⟩
  | @step m _ ih =>
    obtain ⟨added, hadded⟩ := ih
    obtain ⟨added', hadded'⟩ := hnext m i s
    refine ⟨added ++ added', ?_⟩
    rw [hadded', hadded, List.append_assoc]

end Pass

namespace Workbench

variable [MathEngine σ] [Plotter ρ σ]

/-- What follows a number of steps of the pass in which nothing is cancelled. -/
def uncancelled (source : String) (calculate : Bool) (inputs : List String) (w : Workbench σ ρ)
    (n : Nat) : Pass.Progress (Unheard σ) ρ :=
  Pass.after calculate (Sheet.lines source) n 0 (w.unheard.startPass calculate inputs)

/-- The markup that the pass in which nothing is cancelled has written after a number of steps,
with the mark of the length units still in it. -/
def written (source : String) (calculate : Bool) (inputs : List String) (w : Workbench σ ρ)
    (n : Nat) : String :=
  render (w.uncancelled source calculate inputs n).state.page.output.toList

omit [Plotter ρ σ] in
theorem hears_start (calculate : Bool) (inputs : List String) (w : Workbench σ ρ) :
    Pass.Coupled Page.Hears (w.startPass calculate inputs)
      (w.unheard.startPass calculate inputs) := by
  constructor
  · rfl
  · rfl
  · exact ⟨rfl, rfl⟩

/-- A pass in which nothing is ever wanted is the one in which nothing is cancelled. -/
theorem compileUnder_of_never_wanted {raises : Nat → Bool} {source : String} {calculate : Bool}
    {inputs : List String} {w : Workbench σ ρ}
    (hquiet : ∀ n j u, (w.uncancelled source calculate inputs n).place? = some (j, u) →
      raises n = false ∧ u.wantsStop = false) :
    let (html, bench) := w.compileUnder raises source calculate inputs
    let (html', bench') := w.unheard.compile source calculate inputs
    html = html' ∧ bench.engine = bench'.engine.inner ∧ bench.settings = bench'.settings ∧
      bench.plots = bench'.plots := by
  have hrun := Pass.runUnder_of_never_wanted (w.hears_start calculate inputs) hquiet
  rw [compile, pieces, compileUnder]
  rw [show Pass.start inputs (w.unheard.preparedEngine calculate) w.unheard =
    w.unheard.startPass calculate inputs from rfl]
  generalize (w.startPass calculate inputs).runUnder raises calculate (Sheet.lines source) 0 = r,
    (w.unheard.startPass calculate inputs).run calculate (Sheet.lines source) 0 = r' at hrun ⊢
  obtain ⟨ending, s⟩ := r
  obtain ⟨ending', t⟩ := r'
  obtain ⟨rfl, hend⟩ := hrun
  have hunclosed : s.unclosed = t.unclosed := by
    rw [Pass.unclosed, Pass.unclosed, hend.conditions, hend.loops]
  dsimp only
  rw [hend.page.1, hunclosed]
  exact ⟨rfl, rfl, rfl, rfl⟩

/-- **A cancelled pass shows a beginning of what it would have written.**  Let somebody raise the
flag of a pass, or let its engine or plotter want it to stop, or let the flag be raised already.
If that is so after `n` steps of the pass in which nothing is cancelled, and was not before, and
there is a further line to visit, then compiling gives what that pass has written after `n`
steps, with the length units put in and nothing added, and leaves the engine, the settings and
the plotter as they are after `n` steps.  What has been written after more steps begins with
what has been written after fewer. -/
theorem cancelled_pass_beginning (source : String) (calculate : Bool) (inputs : List String)
    (w : Workbench σ ρ) :
    (∀ (raises : Nat → Bool) (n i : Nat) (t : Pass (Unheard σ) ρ),
      (w.uncancelled source calculate inputs n).place? = some (i, t) →
      i < (Sheet.lines source).size →
      (raises n = true ∨ t.wantsStop = true) →
      (∀ k < n, ∀ j u, (w.uncancelled source calculate inputs k).place? = some (j, u) →
        raises k = false ∧ u.wantsStop = false) →
      ∃ bench, w.compileUnder raises source calculate inputs =
          (Markup.fillUnits (w.written source calculate inputs n) w.settings.units calculate,
            bench) ∧
        bench.engine = t.page.engine.inner ∧ bench.settings = t.page.settings ∧
        bench.plots = t.page.plots) ∧
    ∀ n m, n ≤ m → ∃ rest,
      w.written source calculate inputs m = w.written source calculate inputs n ++ rest := by
  constructor
  · intro raises n i t hplace hi hwanted hquiet
    obtain ⟨s, hs, hrun⟩ :=
      Pass.runUnder_of_quiet (w.hears_start calculate inputs) hplace hquiet
    rw [Pass.runUnder_of_wanted hs calculate hi hwanted] at hrun
    have hstate : (w.uncancelled source calculate inputs n).state = t := by
      rcases hx : w.uncancelled source calculate inputs n with ⟨ending, u⟩ | ⟨j, u⟩
      · rw [hx] at hplace
        cases hplace
      · rw [hx] at hplace
        cases hplace
        rfl
    have hsettings : s.page.settings = t.page.settings := by
      rw [hs.page.1]
      rfl
    have hunits : s.page.settings.units = w.settings.units := by
      have hrounded := (w.startPass calculate inputs).rounded_runUnder raises calculate
        (Sheet.lines source) 0
      rw [hrun] at hrounded
      exact hrounded.units
    refine ⟨⟨s.page.engine, s.page.plots, s.page.settings,
      (s.interrupt (raises n)).page.cancel⟩, ?_, ?_, hsettings, ?_⟩
    · rw [compileUnder, hrun, written, hstate, ← hunits]
      have houtput : s.page.output = t.page.output := by
        rw [hs.page.1]
        rfl
      rw [← houtput]
      show (Markup.fillUnits (render (s.page.output.toList ++ [])) s.page.settings.units
        calculate, _) = _
      rw [List.append_nil]
      rfl
    · rw [hs.page.1]
      rfl
    · rw [hs.page.1]
      rfl
  · intro n m hnm
    obtain ⟨added, hadded⟩ := Pass.output_after calculate (Sheet.lines source) hnm 0
      (w.unheard.startPass calculate inputs)
    refine ⟨render added, ?_⟩
    rw [written, written, uncancelled, uncancelled, hadded, render_append]

/-- A sheet with a loop and a line after it. -/
def looped : String :=
  "#repeat\n'a'\n#loop\n'b'"

/-- Somebody raises the flag while the pass goes back to the body of the loop, so the body is
shown once and the line after the loop is not. -/
theorem cancelled_pass_beginning_looped :
    (fresh.uncancelled looped true [] 3).place?.map Prod.fst = some 1 ∧
      (fresh.compileUnder (fun k => k == 3) looped true []).1 =
        Markup.fillUnits (render [.openParagraph (some 2), .text "a ", .closeParagraph, .lineEnd])
          fresh.settings.units true := by
  have hplace : (fresh.uncancelled looped true [] 3).place?.map Prod.fst = some 1 := by
    decide +kernel
  have hquiet : ∀ k < 3, (fresh.uncancelled looped true [] k).place?.all
      (fun place => !place.2.wantsStop) = true := by
    decide +kernel
  have houtput : (fresh.uncancelled looped true [] 3).state.page.output.toList =
      [.openParagraph (some 2), .text "a ", .closeParagraph, .lineEnd] := by
    decide +kernel
  obtain ⟨⟨i, t⟩, ht, rfl⟩ := Option.map_eq_some_iff.mp hplace
  obtain ⟨bench, hcompile, -⟩ := (cancelled_pass_beginning looped true [] fresh).1
    (fun k => k == 3) 3 1 t ht (by decide +kernel) (.inl rfl) (by
      intro k hk j u hu
      have hall := hquiet k hk
      rw [hu] at hall
      refine ⟨?_, by simpa using hall⟩
      simp
      omega)
  refine ⟨hplace, ?_⟩
  rw [hcompile, written, houtput]

end Workbench

end Worksheet
