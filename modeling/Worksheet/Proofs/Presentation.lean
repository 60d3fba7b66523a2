/-
Presentation does not influence computation.

`#hide`, `#show`, `#pre` and `#post` choose what is visible, and `#val` and `#equ` how a
calculated expression is shown.  Two calculating passes over sheets that differ in these words
only, and in whether equations carry their structured form, keep in step: after any number of
steps they are at the same line, with the same blocks, engine, input values and precision, and
they have reported the same errors.  Only a plot line may look at what is visible.

* `Line.plain` — a line without what it says about presentation;
* `Pass.alike_step` — one step at a line and at its plain form;
* `Pass.alike_after` — any number of steps;
* `Workbench.presentation_unobservable` — two whole passes.
-/
import Worksheet.Proofs.Alike

namespace Worksheet

/-! ### Lines -/

/-- Whether a line is a plot. -/
def LineForm.isPlot : LineForm → Bool
  | .plot _ => true
  | _ => false

/-- A line without what it says about presentation: the words that choose what is visible are
alike, and so are those that choose how a calculated expression is shown. -/
def Line.plain (l : Line) : Line :=
  match l.form with
  | .toggle (.visibility _) => ⟨[], .toggle (.visibility .shown)⟩
  | .toggle (.output .equation) => ⟨[], .toggle (.output .equation)⟩
  | .toggle (.output .valueOnly) => ⟨[], .toggle (.output .equation)⟩
  | _ => l

theorem Line.isPlot_plain (l : Line) : l.plain.form.isPlot = l.form.isPlot := by
  obtain ⟨text, form⟩ := l
  cases form with
  | toggle t =>
    rcases t with visibility | mode | mode | scope
    · rfl
    · cases mode <;> rfl
    · rfl
    · rfl
  | _ => rfl

namespace Pass

variable {σ ρ α : Type} {limit : Nat}

/-! ### Passes that are alike -/

/-- Two passes have the same open groups and blocks, and their pages differ in presentation at
most. -/
structure Alike (limit : Nat) (s t : Pass σ ρ) : Prop where
  conditions : s.conditions = t.conditions
  loops : s.loops = t.loops
  page : s.page.Alike limit t.page

/-- Two outcomes are the same, and the passes that they leave behind are alike. -/
def Agree (limit : Nat) (r r' : α × Pass σ ρ) : Prop :=
  r.1 = r'.1 ∧ r.2.Alike limit r'.2

variable {s t u : Pass σ ρ}

theorem Alike.symm (h : s.Alike limit t) : t.Alike limit s :=
  ⟨h.conditions.symm, h.loops.symm, h.page.symm⟩

theorem Alike.trans (h : s.Alike limit t) (h' : t.Alike limit u) : s.Alike limit u :=
  ⟨h.conditions.trans h'.conditions, h.loops.trans h'.loops, h.page.trans h'.page⟩

theorem Alike.visit (h : s.Alike limit t) (calculate : Bool) (line : Line) (index : Nat) :
    s.visit calculate line index = t.visit calculate line index := by
  rw [Pass.visit, Pass.visit, h.loops]

theorem Alike.isLive (h : s.Alike limit t) : s.isLive = t.isLive := by
  rw [Pass.isLive, Pass.isLive, h.conditions, h.loops]

/-! ### Loop words -/

/-- A visit in a calculated sheet is none of a preview. -/
theorem visit_not_preview {v : Visit} (hv : v.calculate = true) : ¬(!v.calculate) = true := by
  rw [hv]
  decide

theorem Alike.closeLoop (h : s.Alike limit t) {v : Visit} (hv : v.calculate = true) :
    Agree limit (s.closeLoop v) (t.closeLoop v) := by
  rw [Pass.closeLoop, Pass.closeLoop, if_neg (visit_not_preview hv),
    if_neg (visit_not_preview hv), h.conditions, h.loops]
  split
  · exact ⟨rfl, rfl, rfl, h.page⟩
  · exact ⟨rfl, h⟩

theorem Alike.leaveLoop (h : s.Alike limit t) {v : Visit} (hv : v.calculate = true) :
    Agree limit (s.leaveLoop v) (t.leaveLoop v) := by
  rw [Pass.leaveLoop, Pass.leaveLoop, if_neg (visit_not_preview hv),
    if_neg (visit_not_preview hv), h.isLive, h.loops]
  split
  · split
    · exact ⟨rfl, h.conditions, rfl, h.page⟩
    · exact ⟨rfl, h⟩
  · exact ⟨rfl, h⟩

theorem Alike.continueLoop (h : s.Alike limit t) {v : Visit} (hv : v.calculate = true) :
    Agree limit (s.continueLoop v) (t.continueLoop v) := by
  rw [Pass.continueLoop, Pass.continueLoop, if_neg (visit_not_preview hv),
    if_neg (visit_not_preview hv), h.isLive, h.conditions, h.loops]
  split
  · exact ⟨rfl, rfl, rfl, h.page⟩
  · exact ⟨rfl, h⟩

variable [MathEngine σ]

theorem Alike.enterLoop (h : s.Alike limit t) {v : Visit} (hv : v.calculate = true) (index : Nat)
    (argument : List Char) :
    Agree limit (s.enterLoop v index argument) (t.enterLoop v index argument) := by
  have hopened : ∀ (count : Option Nat) {p q : Page σ ρ}, p.Alike limit q →
      Alike limit { s with loops := s.loops.enter index count s.conditions.depth, page := p }
        { t with loops := t.loops.enter index count t.conditions.depth, page := q } := by
    intro count p q hpage
    exact ⟨h.conditions, by rw [h.loops, h.conditions], hpage⟩
  obtain ⟨outcome, p, q, hp, hq, hcount⟩ := (h.page.iterationCount argument).exists_eq
  rw [Pass.enterLoop, Pass.enterLoop]
  dsimp only
  rw [if_neg (visit_not_preview hv), if_neg (visit_not_preview hv), hp, hq]
  rw [show t.conditions.isTaken = s.conditions.isTaken by rw [h.conditions],
    show t.loops.isStopped = s.loops.isStopped by rw [h.loops]]
  split
  · exact ⟨rfl, h⟩
  split
  · exact ⟨rfl, hopened _ h.page⟩
  split
  · exact ⟨rfl, hopened _ h.page⟩
  rcases outcome with fault | count
  · refine ⟨rfl, ?_⟩
    dsimp only
    split
    · exact ⟨h.conditions, h.loops, hcount⟩
    · exact hopened _ hcount
  · exact ⟨rfl, hopened _ hcount⟩

theorem Alike.visitContent (hshows : ShowsValues σ limit) (h : s.Alike limit t) (v : Visit)
    (word : Option BranchWord) (body : List Char) :
    Agree limit (s.visitContent v word body) (t.visitContent v word body) := by
  rw [Pass.visitContent, Pass.visitContent, h.conditions, h.loops]
  split
  · exact ⟨rfl, h⟩
  · next c _ =>
    obtain ⟨houtcome, hconditions, hpage⟩ :=
      h.page.content hshows v t.loops.isStopped word body c
    exact ⟨houtcome, hconditions, rfl, hpage⟩

variable [Plotter ρ σ]

omit [MathEngine σ] [Plotter ρ σ] in
/-- Passes that agree on a line go on with the next line in the same way. -/
theorem Agree.next {r r' : Except Fault Unit × Pass σ ρ} (h : Agree limit r r') :
    Agree limit (r.1.map fun _ => Flow.next, r.2) (r'.1.map fun _ => Flow.next, r'.2) :=
  ⟨congrArg (Except.map fun _ => Flow.next) h.1, h.2⟩

/-- A line that leads to the next one, and its plain form. -/
theorem Alike.visitPlain (hshows : ShowsValues σ limit) (hlimit : maxDecimals ≤ limit)
    (h : s.Alike limit t) {line : Line} (hplot : line.form.isPlot = false) {v : Visit}
    (hv : v.calculate = true) (index : Nat) :
    Agree limit (s.visitPlain v index line.form) (t.visitPlain v index line.plain.form) := by
  have honPage : ∀ {r r' : Except Fault Unit × Page σ ρ}, Page.Agree limit r r' →
      Agree limit (s.onPage r) (t.onPage r') :=
    fun hr => ⟨hr.1, h.conditions, h.loops, hr.2⟩
  obtain ⟨text, form⟩ := line
  cases form with
  | blank => exact honPage ⟨rfl, h.page.writeIf _ _ rfl rfl⟩
  | toggle toggle =>
    have htoggle : ∀ {p q : Page σ ρ}, p.Alike limit q →
        Agree limit (s.onPage (.ok (), p)) (t.onPage (.ok (), q)) :=
      fun hpage => honPage ⟨rfl, hpage⟩
    cases toggle with
    | visibility visibility => exact htoggle (h.page.visibility v.calculate visibility .shown)
    | output mode =>
      cases mode with
      | equation => exact htoggle (h.page.outputMode v.calculate (by decide) (by decide))
      | valueOnly => exact htoggle (h.page.outputMode v.calculate (by decide) (by decide))
      | uncalculated => exact htoggle (h.page.applyToggle v.calculate (.output .uncalculated))
    | angle mode => exact htoggle (h.page.applyToggle v.calculate (.angle mode))
    | scope scope => exact htoggle h.page
  | round argument => exact honPage (h.page.round hlimit v.calculate argument)
  | plot kind => cases hplot
  | branch word rest => exact h.visitContent hshows v (some word) rest
  | content => exact h.visitContent hshows v none v.chars
  | loop word argument => exact h.enterLoop hv index argument

/-- A step at a line and a step at its plain form agree, unless the line is a plot. -/
theorem alike_step (hshows : ShowsValues σ limit) (hlimit : maxDecimals ≤ limit)
    (h : s.Alike limit t) {line : Line} (hplot : line.form.isPlot = false) (index : Nat) :
    Agree limit (s.step true line index) (t.step true line.plain index) := by
  have hnext := (h.visitPlain hshows hlimit hplot
    (show (s.visit true line index).calculate = true from rfl) index).next
  obtain ⟨text, form⟩ := line
  cases form with
  | toggle toggle =>
    cases toggle with
    | output mode => cases mode <;> exact hnext
    | _ => exact hnext
  | loop word argument =>
    have hvisit := h.visit true ⟨text, .loop word argument⟩ index
    have hv : (s.visit true ⟨text, .loop word argument⟩ index).calculate = true := rfl
    rw [show (⟨text, .loop word argument⟩ : Line).plain = ⟨text, .loop word argument⟩ from rfl]
    rw [Pass.step, Pass.step, ← hvisit]
    cases word with
    | opening => exact hnext
    | closing => exact h.closeLoop hv
    | leave => exact h.leaveLoop hv
    | next => exact h.continueLoop hv
  | plot kind => cases hplot
  | _ =>
    rw [Line.plain, Pass.step, Pass.step, ← h.visit]
    exact hnext

/-! ### Whole passes -/

/-- What follows for two passes is the same: they end alike, or go on alike at one line. -/
inductive Progress.Alike (limit : Nat) : Progress σ ρ → Progress σ ρ → Prop
  | done {s t : Pass σ ρ} (ending : Ending) (h : s.Alike limit t) :
    Alike limit (.done ending s) (.done ending t)
  | go {s t : Pass σ ρ} (cursor : Nat) (h : s.Alike limit t) :
    Alike limit (.go cursor s) (.go cursor t)

omit [MathEngine σ] [Plotter ρ σ] in
theorem Progress.Alike.symm {x y : Progress σ ρ} (h : x.Alike limit y) : y.Alike limit x := by
  cases h with
  | done ending h => exact .done ending h.symm
  | go cursor h => exact .go cursor h.symm

omit [MathEngine σ] [Plotter ρ σ] in
theorem Progress.Alike.trans {x y z : Progress σ ρ} (h : x.Alike limit y)
    (h' : y.Alike limit z) : x.Alike limit z := by
  cases h with
  | done ending h =>
    cases h' with
    | done _ h' => exact .done ending (h.trans h')
  | go cursor h =>
    cases h' with
    | go _ h' => exact .go cursor (h.trans h')

omit [MathEngine σ] [Plotter ρ σ] in
/-- A toggle reports no fault, so its text is not quoted. -/
theorem alike_follow {line : Line} {r r' : Except Fault Flow × Pass σ ρ} (cursor : Nat)
    (h : Agree limit r r') (htext : line.plain = line ∨ r.1 = .ok .next) :
    (follow line cursor r).Alike limit (follow line.plain cursor r') := by
  obtain ⟨outcome, s⟩ := r
  obtain ⟨outcome', t⟩ := r'
  obtain ⟨rfl, h⟩ := h
  have hreport : ∀ pieces : List Piece, (s.write pieces).Alike limit (t.write pieces) :=
    fun pieces => ⟨h.conditions, h.loops, h.page.write rfl⟩
  rcases htext with hplain | rfl
  · rw [hplain]
    rcases outcome with fault | (_ | next | _)
    · rw [follow, follow]
      split
      · exact .done .aborted (hreport _)
      · exact .go (cursor + 1) (hreport _)
    · exact .go (cursor + 1) h
    · exact .go next h
    · exact .done .stopped h
  · exact .go (cursor + 1) h

/-- One step of two passes, one of them over the plain forms of the lines. -/
theorem alike_tick {lines : Array Line} (hshows : ShowsValues σ limit)
    (hlimit : maxDecimals ≤ limit) (hplots : ∀ line ∈ lines.toList, line.form.isPlot = false)
    (h : s.Alike limit t) (cursor : Nat) :
    (s.tick true lines cursor).Alike limit (t.tick true (lines.map Line.plain) cursor) := by
  rw [Pass.tick, Pass.tick, Array.getElem?_map]
  rcases hl : lines[cursor]? with _ | line
  · exact .done .completed h
  have hplot := hplots line (Array.mem_toList_iff.mpr (Array.mem_of_getElem? hl))
  have hcancelled : s.isCancelled = t.isCancelled := by
    rw [Pass.isCancelled, Pass.isCancelled, h.page.cancel, h.page.engine]
  dsimp only [Option.map_some]
  rw [hcancelled]
  split
  · exact .done .cancelled h
  · refine alike_follow cursor (alike_step hshows hlimit h hplot cursor) ?_
    obtain ⟨text, form⟩ := line
    cases form with
    | toggle toggle => exact .inr rfl
    | _ => exact .inl rfl

/-- Any number of steps of two passes, one of them over the plain forms of the lines. -/
theorem alike_after {lines : Array Line} (hshows : ShowsValues σ limit)
    (hlimit : maxDecimals ≤ limit) (hplots : ∀ line ∈ lines.toList, line.form.isPlot = false)
    (h : s.Alike limit t) (n cursor : Nat) :
    (after true lines n cursor s).Alike limit
      (after true (lines.map Line.plain) n cursor t) := by
  induction n generalizing cursor s t with
  | zero => exact .go cursor h
  | succ n ih =>
    have htick := alike_tick hshows hlimit hplots h cursor
    rw [after, after]
    generalize s.tick true lines cursor = x, t.tick true (lines.map Line.plain) cursor = y
      at htick ⊢
    cases htick with
    | done ending h => exact .done ending h
    | go next h => exact ih h next

/-- Any number of steps of two passes over lines with the same plain forms. -/
theorem alike_after_of_plain {lines lines' : Array Line} (hshows : ShowsValues σ limit)
    (hlimit : maxDecimals ≤ limit) (hlines : lines.map Line.plain = lines'.map Line.plain)
    (hplots : ∀ line ∈ lines.toList, line.form.isPlot = false) (h : s.Alike limit t) (n : Nat) :
    (after true lines n 0 s).Alike limit (after true lines' n 0 t) := by
  have hplots' : ∀ line ∈ lines'.toList, line.form.isPlot = false := by
    intro line' hmem
    have hplain : line'.plain ∈ (lines'.map Line.plain).toList := by
      rw [Array.toList_map]
      exact List.mem_map_of_mem hmem
    rw [← hlines, Array.toList_map] at hplain
    obtain ⟨line, hline, heq⟩ := List.mem_map.mp hplain
    rw [← line'.isPlot_plain, ← heq, line.isPlot_plain]
    exact hplots line hline
  have hleft := alike_after hshows hlimit hplots h n 0
  have hright := alike_after hshows hlimit hplots'
    (⟨rfl, rfl, .refl h.symm.page.bounded⟩ : t.Alike limit t) n 0
  rw [← hlines] at hright
  exact hleft.trans hright.symm

/-- Two passes that are alike after any number of steps end alike. -/
theorem alike_run {lines lines' : Array Line}
    (h : ∀ n, (after true lines n 0 s).Alike limit (after true lines' n 0 t)) :
    Agree limit (s.run true lines 0) (t.run true lines' 0) := by
  obtain ⟨n, -, ending, u, hafter, hrun⟩ : ∃ n ≤ s.potential lines.size 0, ∃ ending u,
      after true lines n 0 s = .done ending u ∧ s.run true lines 0 = (ending, u) :=
    exists_after_eq_done 0 s
  have hn := h n
  rw [hafter] at hn
  generalize hafter' : after true lines' n 0 t = y at hn
  cases hn with
  | done _ hend =>
    rw [hrun, run_of_after hafter']
    exact ⟨rfl, hend⟩

end Pass

namespace Workbench

/-- A workbench that adds the structured form to its equations, or leaves it out. -/
def withFormat {σ ρ : Type} (formatEquations : Bool) (w : Workbench σ ρ) : Workbench σ ρ :=
  { w with settings := { w.settings with formatEquations } }

variable {ρ : Type} [Plotter ρ (Logged Arithmetic.Engine)]

/-- **Presentation does not influence computation.**  Two calculating passes over sheets
without plots that differ in the words for presentation only, with settings that differ in the
form of equations only, are alike after any number of steps: at the same line, with the same
blocks, and with the same evaluations, engine, input values, precision and errors up to there.
They end in the same way, and leave all of these the same.  This holds if the precision of the
settings is one that values can be shown with. -/
theorem presentation_unobservable (source source' : String) (inputs : List String)
    (w : Workbench Arithmetic.Engine ρ) (formatEquations : Bool)
    (hlines : (Sheet.lines source).map Line.plain = (Sheet.lines source').map Line.plain)
    (hplots : ∀ line ∈ (Sheet.lines source).toList, line.form.isPlot = false)
    (hdecimals : w.settings.decimals ≤ Arithmetic.Engine.maxShownDecimals) :
    let w' := w.withFormat formatEquations
    let s := w.logged.startPass true inputs
    let s' := w'.logged.startPass true inputs
    let r := w.logged.pieces source true inputs
    let r' := w'.logged.pieces source' true inputs
    (∀ n, (Pass.after true (Sheet.lines source) n 0 s).Alike Arithmetic.Engine.maxShownDecimals
      (Pass.after true (Sheet.lines source') n 0 s')) ∧
    (s.run true (Sheet.lines source) 0).1 = (s'.run true (Sheet.lines source') 0).1 ∧
    r.2.page.engine.evaluations = r'.2.page.engine.evaluations ∧
    r.2.page.engine.inner = r'.2.page.engine.inner ∧
    r.2.page.inputs = r'.2.page.inputs ∧
    r.2.page.settings.decimals = r'.2.page.settings.decimals ∧
    r.1.filter Piece.isError = r'.1.filter Piece.isError := by
  have hstart : (w.logged.startPass true inputs).Alike Arithmetic.Engine.maxShownDecimals
      ((w.withFormat formatEquations).logged.startPass true inputs) :=
    ⟨rfl, rfl, rfl, rfl, rfl, rfl, hdecimals, Iff.rfl, rfl⟩
  have hafter := Pass.alike_after_of_plain
    (Logged.showsValues Arithmetic.Engine.showsValues) (by decide) hlines hplots hstart
  obtain ⟨hending, hend⟩ := Pass.alike_run hafter
  refine ⟨hafter, hending, ?_⟩
  rw [pieces_eq, pieces_eq]
  dsimp only
  generalize (w.logged.startPass true inputs).run true (Sheet.lines source) 0 = r,
    ((w.withFormat formatEquations).logged.startPass true inputs).run true
      (Sheet.lines source') 0 = r' at hending hend ⊢
  have hunclosed : r.2.unclosed = r'.2.unclosed := by
    rw [Pass.unclosed, Pass.unclosed, hend.conditions, hend.loops]
  refine ⟨?_, ?_, hend.page.inputs, hend.page.decimals, ?_⟩
  · rw [hend.page.engine]
  · rw [hend.page.engine]
  · rw [List.filter_append, List.filter_append, hending, hunclosed]
    exact congrArg (· ++ _) hend.page.errors

/-- A sheet in which a value is shown alone, and a later line is hidden. -/
def shownAlone : String :=
  "#val\n?\n#hide\na = 2"

/-- The same sheet with other words for its presentation. -/
def shownInFull : String :=
  "#equ\n?\n#show\na = 2"

theorem shownAlone_plain :
    (Sheet.lines shownAlone).map Line.plain = (Sheet.lines shownInFull).map Line.plain ∧
      ∀ line ∈ (Sheet.lines shownAlone).toList, line.form.isPlot = false := by
  decide +kernel

/-- With a precision of two decimals, the same expressions are evaluated in both sheets. -/
theorem presentation_unobservable_shownAlone :
    (fresh.logged.pieces shownAlone true ["NaN"]).2.page.engine.evaluations =
      ((fresh.withFormat true).logged.pieces shownInFull true
        ["NaN"]).2.page.engine.evaluations := by
  have h := presentation_unobservable shownAlone shownInFull ["NaN"] fresh true
    shownAlone_plain.1 shownAlone_plain.2 (by decide)
  exact h.2.2.1

/-- A workbench with a precision that is too large for values to be shown. -/
def tooPrecise : Workbench Arithmetic.Engine SamplePlotter :=
  { fresh with settings := { fresh.settings with decimals := 65536 } }

/-- With too large a precision, the pass over one sheet is over after two steps, and the one
over the other goes on with its third line. -/
theorem presentation_observed :
    ((Sheet.lines shownAlone).map Line.plain = (Sheet.lines shownInFull).map Line.plain ∧
      ∀ line ∈ (Sheet.lines shownAlone).toList, line.form.isPlot = false) ∧
    (Pass.after true (Sheet.lines shownAlone) 2 0
      (tooPrecise.logged.startPass true ["NaN"])).place? = none ∧
    ∃ s, (Pass.after true (Sheet.lines shownInFull) 2 0
      (tooPrecise.logged.startPass true ["NaN"])).place? = some (2, s) := by
  have halone : (Pass.after true (Sheet.lines shownAlone) 2 0
      (tooPrecise.logged.startPass true ["NaN"])).place?.isNone = true := by
    decide +kernel
  have hfull : ∃ p ∈ (Pass.after true (Sheet.lines shownInFull) 2 0
      (tooPrecise.logged.startPass true ["NaN"])).place?, p.1 = 2 := by
    decide +kernel
  obtain ⟨⟨i, s⟩, hp, rfl⟩ := hfull
  exact ⟨shownAlone_plain, Option.isNone_iff_eq_none.mp halone, s, hp⟩

end Workbench

end Worksheet
