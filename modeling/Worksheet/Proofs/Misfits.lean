/-
Lines that do not fit.

A branch word, a `#loop` or a `#continue` that finds no open block of its kind, or comes after
the `#else` of its group, is a misfit.  It is reported and changes nothing: the groups, the
blocks, the input values and the engine stay as they were, and not a single flag is set before
the report.  So a pass over a sheet with such a line, and one over the same sheet with a word
in its place that does nothing at all (`Sheet.replaceLine`), are in step throughout; what one has
written is what the other has written, apart from the reports of that line.

* `StructureError.isMisfit` — the faults of a line that does not fit;
* `Pass.step_of_misfit` — a visit to such a line changes nothing;
* `Pass.misfit_of_no_group` — in a sheet without `#if`, all other branch words are misfits;
* `Page.without`, `Pass.without` — a page and a pass without the reports of a line;
* `Page.without_coupling`, `Pass.without_after`, `Pass.run_without` — the visits to all other
  lines, any number of steps, and a whole run;
* `Workbench.without_misfit` — two whole passes, with any engine;
* `Workbench.misfit_line_inert` — two whole passes, with the calls that they make of the engine.
-/
import Worksheet.Proofs.BalancedPass
import Worksheet.Proofs.Breaks
import Worksheet.Proofs.Coupling
import Worksheet.Proofs.Openings
import Worksheet.Proofs.Watched

namespace Worksheet

variable {σ ρ : Type}

/-! ### A visit to a line that does not fit -/

/-- A line does not fit the blocks around it: it finds no block of its kind, or stands after
the `#else` of its group. -/
def StructureError.isMisfit : StructureError → Bool
  | .missingIf => true
  | .unmatchedEndIf => true
  | .duplicateElse => true
  | .elseIfAfterElse => true
  | .loopWithoutRepeat => true
  | .continueWithoutRepeat => true
  | .emptyCondition => false
  | .entangled => false

/-- `#loop` changes nothing if it does not fit. -/
theorem Loops.close_of_misfit {depth : Nat} {s : Loops} {e : StructureError}
    (h : (s.close depth).1 = .error e) (he : e.isMisfit = true) :
    s.close depth = (.error e, s) := by
  rw [close] at h ⊢
  split at h
  · cases h
    rfl
  · split at h
    · cases h
      cases he
    · split at h
      · cases h
      · cases h

/-- `#continue` changes nothing if it does not fit. -/
theorem Loops.advance_of_misfit {c : Conditions} {s : Loops} {e : StructureError}
    (h : (s.advance c).1 = .error e) (he : e.isMisfit = true) :
    s.advance c = (.error e, s, c) := by
  rw [advance] at h ⊢
  split at h
  · cases h
    rfl
  · split at h
    · cases h
      cases he
    · split at h
      · cases h
      · cases h

namespace Pass

/-- The outcome of a loop word is a fault of structure only if its block says so. -/
theorem eq_error_of_loopOutcome {r : Except StructureError (Option Nat)} {e : StructureError}
    (h : (r.map flowTo).mapError Fault.structural = .error (.structural e)) : r = .error e := by
  rcases r with e' | next
  · cases h
    rfl
  · cases h

theorem closeLoop_of_misfit {v : Visit} {s : Pass σ ρ} {e : StructureError}
    (h : (s.closeLoop v).1 = .error (.structural e)) (he : e.isMisfit = true) :
    s.closeLoop v = (.error (.structural e), s) := by
  rw [closeLoop] at h ⊢
  split at h
  · cases h
  next hv =>
  split at h
  · next htaken =>
    have hclose := Loops.close_of_misfit (eq_error_of_loopOutcome h) he
    rw [if_neg hv, if_pos htaken, hclose]
    rfl
  · cases h

theorem leaveLoop_ne_error {v : Visit} {s : Pass σ ρ} {fault : Fault} :
    (s.leaveLoop v).1 ≠ .error fault := by
  rw [leaveLoop]
  split
  · simp
  split
  · split <;> simp
  · simp

theorem continueLoop_of_misfit {v : Visit} {s : Pass σ ρ} {e : StructureError}
    (h : (s.continueLoop v).1 = .error (.structural e)) (he : e.isMisfit = true) :
    s.continueLoop v = (.error (.structural e), s) := by
  rw [continueLoop] at h ⊢
  split at h
  · cases h
  next hv =>
  split at h
  · next hlive =>
    have hadvance := Loops.advance_of_misfit (eq_error_of_loopOutcome h) he
    rw [if_neg hv, if_pos hlive, hadvance]
    rfl
  · cases h

variable [MathEngine σ]

theorem visitContent_of_misfit {v : Visit} {word : Option BranchWord} {body : List Char}
    {s : Pass σ ρ} {e : StructureError}
    (h : (s.visitContent v word body).1 = .error (.structural e)) (he : e.isMisfit = true) :
    s.visitContent v word body = (.error (.structural e), s) := by
  rw [visitContent] at h ⊢
  split at h
  · cases h
    rfl
  · -- once a line was entered, its only fault of structure is an empty condition
    obtain ⟨rfl, -⟩ := Page.content_structural h
    cases he

variable [Plotter ρ σ]

theorem visitPlain_of_misfit {v : Visit} {index : Nat} {form : LineForm} {s : Pass σ ρ}
    {e : StructureError} (h : (s.visitPlain v index form).1 = .error (.structural e))
    (he : e.isMisfit = true) :
    s.visitPlain v index form = (.error (.structural e), s) := by
  cases form with
  | branch word rest => exact visitContent_of_misfit h he
  | content => exact visitContent_of_misfit h he
  | blank => cases h
  | toggle t => cases h
  | round argument => exact absurd h (Page.round_structural e)
  | plot kind => exact absurd h (Page.plot_structural e)
  | loop word argument => exact absurd h (enterLoop_structural e)

/-- A visit to a line that does not fit changes nothing. -/
theorem step_of_misfit {calculate : Bool} {line : Line} {index : Nat} {s : Pass σ ρ}
    {e : StructureError} (h : (s.step calculate line index).1 = .error (.structural e))
    (he : e.isMisfit = true) :
    s.step calculate line index = (.error (.structural e), s) := by
  have hplain : ((s.visitPlain (s.visit calculate line index) index line.form).1.map
      fun _ => Flow.next) = .error (.structural e) →
      ((s.visitPlain (s.visit calculate line index) index line.form).1.map (fun _ => Flow.next),
        (s.visitPlain (s.visit calculate line index) index line.form).2) =
          (.error (.structural e), s) := by
    intro h
    rw [visitPlain_of_misfit (eq_error_of_plainOutcome h) he]
    rfl
  obtain ⟨text, form⟩ := line
  cases form with
  | loop word argument =>
    cases word with
    | opening => exact hplain h
    | closing => exact closeLoop_of_misfit h he
    | leave => exact absurd h leaveLoop_ne_error
    | next => exact continueLoop_of_misfit h he
  | _ => exact hplain h

end Pass

/-! ### Sheets without groups -/

namespace Pass

variable [MathEngine σ] [Plotter ρ σ] {calculate : Bool} {lines : Array Line}

/-- Where no group is open, a branch word other than `#if` does not fit. -/
theorem misfit_of_no_group {word : BranchWord} (hword : word ≠ .opening) {s : Pass σ ρ}
    (hs : s.conditions.depth = 0) (text rest : List Char) (index : Nat) :
    ∃ e : StructureError,
      (s.step calculate ⟨text, .branch word rest⟩ index).1 = .error (.structural e) ∧
        e.isMisfit = true := by
  have hnone : s.conditions.enclosing = [] := List.length_eq_zero_iff.mp hs
  obtain ⟨e, henter, he⟩ : ∃ e : StructureError,
      s.conditions.enter (some word) = .error e ∧ e.isMisfit = true := by
    cases word with
    | opening => exact absurd rfl hword
    | alternative =>
      exact ⟨.missingIf, by simp [Conditions.enter, Conditions.misplaced, hnone], rfl⟩
    | otherwise =>
      exact ⟨.missingIf, by simp [Conditions.enter, Conditions.misplaced, hnone], rfl⟩
    | closing =>
      exact ⟨.unmatchedEndIf, by simp [Conditions.enter, Conditions.misplaced, hnone], rfl⟩
  refine ⟨e, ?_, he⟩
  show ((s.visitContent _ (some word) rest).1.map fun _ => Flow.next) = _
  rw [visitContent, henter]
  rfl

/-- In a sheet without `#if`, no group is ever open. -/
theorem Reaches.depth_eq_zero (hlines : ∀ line ∈ lines.toList, line.form.opensGroup = false)
    {i j : Nat} {s t : Pass σ ρ} (h : Reaches calculate lines i s j t)
    (hs : s.conditions.depth = 0) : t.conditions.depth = 0 := by
  refine h.keeps (I := fun c _ => c.depth = 0) ?_ hs
  intro k line u hl hu
  have hdepth := depth_step calculate line k u
  rw [hlines line (Array.mem_toList_iff.mpr (Array.mem_of_getElem? hl))] at hdepth
  exact Nat.le_zero.mp (Nat.le_trans hdepth (Nat.le_of_eq hu))

end Pass

/-! ### Without the reports of a line -/

/-- A piece reports an error of a line. -/
def Piece.reports (number : Nat) : Piece → Bool
  | .lineError _ line _ => line == number
  | _ => false

namespace Page

/-- A page without the reports of a line. -/
def without (number : Nat) (p : Page σ ρ) : Page σ ρ :=
  { p with output := p.output.filter fun piece => !piece.reports number }

theorem output_without (number : Nat) (p : Page σ ρ) :
    (p.without number).output.toList =
      p.output.toList.filter fun piece => !piece.reports number := by
  simp [without]

theorem without_write (number : Nat) (pieces : List Piece) (p : Page σ ρ) :
    (p.write pieces).without number =
      (p.without number).write (pieces.filter fun piece => !piece.reports number) := by
  have houtput : (p.output ++ pieces).filter (fun piece => !piece.reports number) =
      p.output.filter (fun piece => !piece.reports number) ++
        pieces.filter fun piece => !piece.reports number := by
    apply Array.ext'
    simp
  rw [without, write, houtput]
  rfl

/-- Pieces that report nothing of the line stay. -/
theorem without_write_of_kept {number : Nat} {pieces : List Piece}
    (h : ∀ piece ∈ pieces, piece.reports number = false) (p : Page σ ρ) :
    (p.write pieces).without number = (p.without number).write pieces := by
  rw [without_write, List.filter_eq_self.mpr]
  intro piece hmem
  rw [h piece hmem]
  rfl

/-- A report of the line goes. -/
theorem without_write_report (number : Nat) (source message : String) (p : Page σ ρ) :
    (p.write [.lineError source number message]).without number = p.without number := by
  have hgone : [Piece.lineError source number message].filter
      (fun piece => !piece.reports number) = [] := by
    simp [Piece.reports]
  rw [without_write, hgone]
  rfl

theorem reports_of_fitsLine {line number : Nat} (hne : line ≠ number) {piece : Piece}
    (h : piece.FitsLine line) : piece.reports number = false := by
  cases piece with
  | lineError source line' message =>
    obtain rfl : line' = line := h
    exact beq_false_of_ne hne
  | _ => rfl

variable [MathEngine σ]

/-- A visit to another line does the same on a page and on the page without the reports. -/
theorem without_coupling {v : Visit} {number : Nat} (hne : v.number ≠ number) :
    Coupling v fun (p q : Page σ ρ) => q = p.without number where
  visible := by
    rintro p _ rfl
    rfl
  mode := by
    rintro p _ rfl
    rfl
  write := by
    rintro p _ pieces rfl hpieces
    refine (without_write_of_kept ?_ p).symm
    exact fun piece hmem => reports_of_fitsLine hne (hpieces piece hmem)
  skipInputs := by
    rintro p _ count rfl
    rfl
  applyToggle := by
    rintro p _ t rfl
    rcases t with (_ | _ | _ | _) | mode | mode | scope <;> rfl
  setDecimals := by
    rintro p _ decimals rfl
    rfl
  parse := by
    rintro p _ text rfl
    exact ⟨rfl, rfl⟩
  parsed := by
    rintro p _ text rfl -
    exact ⟨rfl, rfl⟩
  calculate := by
    rintro p _ - rfl
    exact ⟨rfl, rfl⟩
  calculated := by
    rintro p _ - rfl
    exact ⟨rfl, rfl⟩

/-- A plot does the same on a page without the reports of a line. -/
theorem plot_without [Plotter ρ σ] (number : Nat) (v : Visit) (live : Bool) (kind : PlotKind)
    (p : Page σ ρ) :
    SameOutcome (fun p q => q = p.without number) (p.plot v live kind)
      ((p.without number).plot v live kind) := by
  have hrender : ∀ request (plots : ρ), (p.without number).renderPlot request plots =
      ((p.renderPlot request plots).1, (p.renderPlot request plots).2.without number) :=
    fun _ _ => rfl
  rw [plot, plot]
  rw [show (p.without number).visible = p.visible from rfl,
    show (p.without number).plots = p.plots from rfl]
  split
  · exact ⟨rfl, rfl⟩
  rcases p.plots with _ | plots
  · exact ⟨rfl, rfl⟩
  · dsimp only
    rw [hrender]
    generalize p.renderPlot ⟨kind, String.ofList v.chars, v.calculate⟩ plots = r
    obtain ⟨e | html, q⟩ := r
    · exact ⟨rfl, rfl⟩
    · refine ⟨rfl, (without_write_of_kept ?_ q).symm⟩
      intro piece hmem
      rw [List.mem_singleton.mp hmem]
      rfl

end Page

namespace Pass

/-- A pass without the reports of a line. -/
def without (number : Nat) (s : Pass σ ρ) : Pass σ ρ :=
  { s with page := s.page.without number }

/-- What follows from a step, without the reports of a line. -/
def Progress.without (number : Nat) : Progress σ ρ → Progress σ ρ
  | .done ending s => .done ending (s.without number)
  | .go cursor s => .go cursor (s.without number)

/-- The reports on open blocks belong to no line. -/
theorem not_reports_of_unclosed (s : Pass σ ρ) {number : Nat} {piece : Piece}
    (h : piece ∈ s.unclosed) : piece.reports number = false := by
  rw [unclosed, List.mem_append] at h
  rcases h with h | h
  · split at h
    · cases h
    · rw [List.mem_singleton.mp h]
      rfl
  · split at h
    · cases h
    · rw [List.mem_singleton.mp h]
      rfl

theorem filter_unclosed (s : Pass σ ρ) (number : Nat) :
    (s.unclosed.filter fun piece => !piece.reports number) = s.unclosed := by
  refine List.filter_eq_self.mpr ?_
  intro piece hmem
  rw [s.not_reports_of_unclosed hmem]
  rfl

theorem Coupled.eq_without {number : Nat} {s t : Pass σ ρ}
    (h : Coupled (fun p q => q = p.without number) s t) : t = s.without number := by
  obtain ⟨conditions, loops, page⟩ := t
  obtain ⟨rfl, rfl, rfl⟩ := h
  rfl

theorem Progress.Coupled.eq_without {number : Nat} {x y : Progress σ ρ}
    (h : x.Coupled (fun p q => q = p.without number) y) : y = x.without number := by
  cases h with
  | done ending h => rw [h.eq_without]; rfl
  | go cursor h => rw [h.eq_without]; rfl

end Pass

/-! ### A sheet with a word in place of the line -/

/-- A line with a word that does nothing. -/
def Line.idle : Line :=
  .ofChars "#local".toList

namespace Pass

variable [MathEngine σ] [Plotter ρ σ] {calculate : Bool} {lines lines' : Array Line} {k : Nat}
  {line : Line}

theorem step_idle (index : Nat) (s : Pass σ ρ) :
    s.step calculate Line.idle index = (.ok .next, s) := by
  have hidle : Line.idle = ⟨"#local".toList, .toggle (.scope .inner)⟩ := by decide +kernel
  rw [hidle]
  rfl

/-- One step over a sheet with a line that does not fit, and over the sheet with an idle line in
its place. -/
theorem without_tick (hline : lines[k]? = some line)
    (hlines' : lines' = lines.setIfInBounds k Line.idle) {j : Nat} {s t : Pass σ ρ}
    (hmisfit : j = k → s.isCancelled = false →
      ∃ e : StructureError, (s.step calculate line k).1 = .error (.structural e) ∧
        e.isMisfit = true)
    (h : Coupled (fun p q => q = p.without (k + 1)) s t) :
    (s.tick calculate lines j).Coupled (fun p q => q = p.without (k + 1))
      (t.tick calculate lines' j) := by
  have hcancelled : t.isCancelled = s.isCancelled := by
    rw [h.eq_without]
    rfl
  by_cases hj : j = k
  · -- the report of the line is left out, and the idle line reports nothing
    subst hj
    have hidle : lines'[j]? = some Line.idle := by
      rw [hlines']
      have hsize := (Array.getElem?_eq_some_iff.mp hline).1
      simp [hsize]
    rw [tick, tick, hline, hidle]
    dsimp only
    rw [hcancelled]
    split
    · exact .done .cancelled h
    next hquiet =>
    obtain ⟨e, herror, he⟩ := hmisfit rfl (by simpa using hquiet)
    rw [step_of_misfit herror he, step_idle]
    refine .go (j + 1) ⟨h.conditions, h.loops, ?_⟩
    rw [h.page]
    exact (Page.without_write_report (j + 1) _ _ s.page).symm
  · have hsame : lines'[j]? = lines[j]? := by
      rw [hlines', Array.getElem?_setIfInBounds_ne (fun hkj => hj hkj.symm)]
    rw [tick, tick, hsame]
    rcases lines[j]? with _ | line'
    · exact .done .completed h
    dsimp only
    rw [hcancelled]
    split
    · exact .done .cancelled h
    have hne : (s.visit calculate line' j).number ≠ k + 1 := by
      show j + 1 ≠ k + 1
      omega
    have hcoupling := Page.without_coupling (σ := σ) (ρ := ρ) hne
    refine coupled_follow hcoupling.write (hcoupling.step h ?_)
    intro kind _
    rw [h.page, ← h.isLive]
    exact Page.plot_without (k + 1) _ _ kind s.page

section

variable (hline : lines[k]? = some line) (hlines' : lines' = lines.setIfInBounds k Line.idle)
  {s t : Pass σ ρ}
  (hmisfit : ∀ u, Reaches calculate lines 0 s k u → u.isCancelled = false →
    ∃ e : StructureError, (u.step calculate line k).1 = .error (.structural e) ∧
      e.isMisfit = true)
  (h : Coupled (fun p q => q = p.without (k + 1)) s t)

include hline hlines' hmisfit h

/-- Any number of steps over a sheet with a line that does not fit, and over the sheet with an
idle line in its place. -/
theorem without_after (n : Nat) :
    (after calculate lines n 0 s).Coupled (fun p q => q = p.without (k + 1))
      (after calculate lines' n 0 t) := by
  refine coupled_after ?_ h n
  intro j u u' hreaches hu
  refine without_tick hline hlines' ?_ hu
  rintro rfl hquiet
  exact hmisfit u hreaches hquiet

/-- A whole pass over a sheet with a line that does not fit, and over the sheet with an idle line
in its place. -/
theorem run_without :
    t.run calculate lines' 0 =
      ((s.run calculate lines 0).1, (s.run calculate lines 0).2.without (k + 1)) := by
  obtain ⟨hending, hend⟩ := coupled_run (without_after hline hlines' hmisfit h)
  exact Prod.ext hending.symm hend.eq_without

end

end Pass

namespace Workbench

section

variable [MathEngine σ] [Plotter ρ σ]

/-- If a line is at fault for not fitting whenever it is visited, a pass over the source with
`#local` in its place goes through the same lines in the same states, ends in the same way,
leaves the same workbench and writes the same pieces, apart from the reports of that line.  This
is so with any engine. -/
theorem without_misfit (source : String) (calculate : Bool) (inputs : List String)
    (w : Workbench σ ρ) {k : Nat} {line : Line}
    (hline : (Sheet.lines source)[k]? = some line)
    (hmisfit : ∀ s, w.ComesTo source calculate inputs k s → s.isCancelled = false →
      ∃ e : StructureError, (s.step calculate line k).1 = .error (.structural e) ∧
        e.isMisfit = true) :
    let source' := Sheet.replaceLine k "#local" source
    let start := w.startPass calculate inputs
    let r := start.run calculate (Sheet.lines source) 0
    (∀ n, Pass.after calculate (Sheet.lines source') n 0 start =
      (Pass.after calculate (Sheet.lines source) n 0 start).without (k + 1)) ∧
    start.run calculate (Sheet.lines source') 0 = (r.1, r.2.without (k + 1)) ∧
    (w.compile source' calculate inputs).2 = (w.compile source calculate inputs).2 ∧
    (w.pieces source' calculate inputs).1 =
      (w.pieces source calculate inputs).1.filter fun piece => !piece.reports (k + 1) := by
  have hsource : Sheet.lines (Sheet.replaceLine k "#local" source) =
      (Sheet.lines source).setIfInBounds k Line.idle :=
    Sheet.lines_replaceLine ⟨by decide, by decide⟩ (by decide) k source
  have hstart : Pass.Coupled (fun p q => q = p.without (k + 1)) (w.startPass calculate inputs)
      (w.startPass calculate inputs) :=
    ⟨rfl, rfl, rfl⟩
  have hrun := Pass.run_without hline hsource hmisfit hstart
  refine ⟨fun n => (Pass.without_after hline hsource hmisfit hstart n).eq_without, hrun, ?_⟩
  rw [compile, compile, pieces_eq, pieces_eq, hrun]
  generalize (w.startPass calculate inputs).run calculate (Sheet.lines source) 0 = r
  refine ⟨rfl, ?_⟩
  show (r.2.without (k + 1)).page.output.toList ++
      (if r.1 = .completed then r.2.unclosed else []) = _
  rw [List.filter_append, ← Page.output_without]
  split
  · rw [r.2.filter_unclosed]
    rfl
  · rfl

end

section

variable [MathEngine σ] [Plotter ρ (Observed σ)]

/-- **A line that does not fit is inert**, if it is at fault for that whenever it is visited.
With `#local` in its place in the source:

* after any number of steps, the pass is at the same line and in the same state, apart from the
  reports of that line;
* it ends in the same way, and leaves the same engine, after the same calls, and the same
  settings, groups and blocks;
* it writes the same pieces, apart from the reports of that line.

The engine is any engine under observation.  That the calls of an engine are noted changes
nothing if its values are real (`compile_traced`); without the calls, the same holds of any
engine (`without_misfit`). -/
theorem misfit_line_inert (source : String) (calculate : Bool) (inputs : List String)
    (w : Workbench (Observed σ) ρ) {k : Nat} {line : Line}
    (hline : (Sheet.lines source)[k]? = some line)
    (hmisfit : ∀ s, w.ComesTo source calculate inputs k s → s.isCancelled = false →
      ∃ e : StructureError, (s.step calculate line k).1 = .error (.structural e) ∧
        e.isMisfit = true) :
    let source' := Sheet.replaceLine k "#local" source
    let start := w.startPass calculate inputs
    let r := start.run calculate (Sheet.lines source) 0
    let r' := start.run calculate (Sheet.lines source') 0
    (∀ n, Pass.after calculate (Sheet.lines source') n 0 start =
      (Pass.after calculate (Sheet.lines source) n 0 start).without (k + 1)) ∧
    r'.1 = r.1 ∧
    (r'.2.page.engine.trace = r.2.page.engine.trace ∧
      r'.2.page.engine.inner = r.2.page.engine.inner) ∧
    (r'.2.page.settings = r.2.page.settings ∧ r'.2.conditions = r.2.conditions ∧
      r'.2.loops = r.2.loops) ∧
    (w.pieces source' calculate inputs).1 =
      (w.pieces source calculate inputs).1.filter fun piece => !piece.reports (k + 1) := by
  obtain ⟨hafter, hrun, -, hpieces⟩ := w.without_misfit source calculate inputs hline hmisfit
  dsimp only
  rw [hrun]
  exact ⟨hafter, rfl, ⟨rfl, rfl⟩, ⟨rfl, rfl, rfl⟩, hpieces⟩

end

/-- A workbench that has not been used, with an engine that notes its calls. -/
def observed : Workbench (Observed Arithmetic.Engine) SamplePlotter :=
  fresh.map (Observed.start { traces := true })

/-- A loop with an `#else` without its `#if`. -/
def straying : String :=
  "#repeat 2\n#else\nx = 1\n#loop"

/-- The `#else` of `straying` is a misfit in each iteration, and without it the same calls are
made. -/
theorem misfit_line_inert_straying :
    (∀ s, observed.ComesTo straying true [] 1 s → s.isCancelled = false →
      ∃ e : StructureError, (s.step true (.ofChars "#else".toList) 1).1 = .error (.structural e) ∧
        e.isMisfit = true) ∧
    ((observed.startPass true []).run true
        (Sheet.lines (Sheet.replaceLine 1 "#local" straying)) 0).2.page.engine.trace =
      ((observed.startPass true []).run true (Sheet.lines straying) 0).2.page.engine.trace := by
  have hmisfit : ∀ s, observed.ComesTo straying true [] 1 s → s.isCancelled = false →
      ∃ e : StructureError, (s.step true (.ofChars "#else".toList) 1).1 = .error (.structural e) ∧
        e.isMisfit = true := by
    intro s hs _
    have hlines : ∀ line ∈ (Sheet.lines straying).toList, line.form.opensGroup = false := by
      decide +kernel
    have hform : Line.ofChars "#else".toList = ⟨"#else".toList, .branch .otherwise []⟩ := by
      decide +kernel
    rw [hform]
    exact Pass.misfit_of_no_group (by decide) (Pass.Reaches.depth_eq_zero hlines hs rfl) _ _ _
  refine ⟨hmisfit, ?_⟩
  exact (misfit_line_inert straying true [] observed (by decide +kernel) hmisfit).2.2.1.1

end Workbench

end Worksheet
