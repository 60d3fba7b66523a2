/-
One step of a pass.

A step visits one line: it does what the line asks for and says where to go on.
Only `#repeat`, `#loop`, `#break` and `#continue` touch the open loops, and only
the last three of these lead anywhere but to the next line.

* `Pass.visitPlain` — a line that leads to the next one;
* `Pass.step` — any line.
-/
import Worksheet.Number.Read
import Worksheet.Sheet.Content
import Worksheet.Sheet.Line

namespace Worksheet

/-- Where a pass goes on after a line. -/
inductive Flow where
  | next
  | jump (index : Nat)
  | stop
  deriving DecidableEq, Repr

/-- The largest precision that `#round` sets. -/
def maxDecimals : Nat :=
  15

/-- The state of a pass apart from its position. -/
structure Pass (σ ρ : Type) where
  conditions : Conditions
  loops : Loops
  page : Page σ ρ

/-! ### Lines that only touch the page -/

namespace Page

variable {σ ρ : Type} [MathEngine σ]

/-- Applies a toggle. -/
def applyToggle (calculate : Bool) (t : Toggle) (p : Page σ ρ) : Page σ ρ :=
  match t with
  | .visibility .hidden => { p with visible := false }
  | .visibility .shown => { p with visible := true }
  | .visibility .previewOnly => { p with visible := !calculate }
  | .visibility .calculatedOnly => { p with visible := calculate }
  | .output mode => { p with mode }
  | .angle mode => { p with engine := MathEngine.setAngleMode mode p.engine }
  | .scope _ => p

/-- Sets the precision of values, within its bound. -/
def setDecimals (decimals : Nat) (p : Page σ ρ) : Page σ ρ :=
  { p with settings := { p.settings with decimals := min maxDecimals decimals } }

/-- Applies `#round`.  Its argument is a whole number or, in a calculated sheet, an
expression. -/
def round (calculate : Bool) (argument : List Char) (p : Page σ ρ) :
    Except Fault Unit × Page σ ρ :=
  if argument.isEmpty then (.ok (), p)
  else
    match (Number.readInteger? argument).filter Number.fitsWord with
    | some n => (.ok (), p.setDecimals n.toNat)
    | none =>
      if calculate then
        match p.evaluate (String.ofList argument) with
        | (.error e, p) => (.error e.fault, p)
        | (.ok value, p) => (.ok (), p.setDecimals (Number.wholeBelow maxDecimals value.re))
      else (.ok (), p)

/-- The number of iterations that a value asks for, a half rounding up. -/
def countOfValue (value : Float) : Except CalculationError Nat :=
  if value.isNaN || value < 0.0 then .error (.invalidCount value)
  else if 2147483647.0 < value then .error .countTooLarge
  else .ok (Number.wholeBelow maxIterationCount value)

/-- The number of iterations that an expression asks for. -/
def iterationCount (argument : List Char) (p : Page σ ρ) : Except Fault Nat × Page σ ρ :=
  match p.evaluate (String.ofList argument) with
  | (.error e, p) => (.error e.fault, p)
  | (.ok value, p) => ((countOfValue value.re).mapError .calculation, p)

/-- Shows `#repeat` in a preview, with its count as the engine reads it. -/
def previewRepeat (v : Visit) (argument : List Char) (p : Page σ ρ) :
    Except Fault Unit × Page σ ρ :=
  if !p.visible then (.ok (), p)
  else if argument.isEmpty then
    (.ok (), p.write [.openControl v.anchor, .text LoopWord.opening.keyword, .closeParagraph,
      .indent])
  else
    match p.parse (String.ofList argument) with
    | (.error (.crashed payload), p) => (.error (Failure.crashed payload).fault, p)
    | (outcome, p) =>
      let count :=
        match outcome with
        | .ok () => [.text (" " ++ MathEngine.html p.engine)]
        | .error _ => []
      (outcome.mapError Failure.fault,
        p.write ([.openParagraph v.anchor, .label LoopWord.opening.keyword] ++ count ++
          [.closeParagraph, .indent]))

/-- Shows another loop word in a preview. -/
def previewLoopWord (v : Visit) (word : LoopWord) (p : Page σ ρ) : Page σ ρ :=
  p.writeIf p.visible
    ((if word = .closing then [.dedent] else []) ++
      [.openControl v.anchor, .text word.keyword, .closeParagraph])

/-- Shows a plot, where it is live. -/
def plot [Plotter ρ σ] (v : Visit) (live : Bool) (kind : PlotKind) (p : Page σ ρ) :
    Except Fault Unit × Page σ ρ :=
  if !(p.visible && (!v.calculate || live)) then (.ok (), p)
  else
    match p.plots with
    | none => (.error (.calculation .plottingUnavailable), p)
    | some plots =>
      match p.renderPlot ⟨kind, String.ofList v.chars, v.calculate⟩ plots with
      | (.error e, p) => (.error e.fault, p)
      | (.ok html, p) => (.ok (), p.write [.markup html v.anchor])

end Page

/-! ### Visiting a line -/

namespace Pass

variable {σ ρ : Type} [MathEngine σ] [Plotter ρ σ]

/-- Whether content at this point is shown in a calculated sheet. -/
def isLive (s : Pass σ ρ) : Bool :=
  s.conditions.isTaken && !s.loops.isStopped

/-- Meets `#repeat`.  Inside a stopped loop, and where the count fails, a block
without iterations is opened, so that its `#loop` finds a block to close; only a
crash opens none. -/
def enterLoop (v : Visit) (index : Nat) (argument : List Char) (s : Pass σ ρ) :
    Except Fault Unit × Pass σ ρ :=
  let opened (count : Option Nat) (page : Page σ ρ) : Pass σ ρ :=
    { s with loops := s.loops.enter index count s.conditions.depth, page }
  if !v.calculate then
    let (outcome, page) := s.page.previewRepeat v argument
    (outcome, { s with page })
  else if !s.conditions.isTaken then (.ok (), s)
  else if s.loops.isStopped then (.ok (), opened (some 0) s.page)
  else if argument.isEmpty then (.ok (), opened none s.page)
  else
    match s.page.iterationCount argument with
    | (.ok count, page) => (.ok (), opened (some count) page)
    | (.error fault, page) =>
      (.error fault, if fault.isFatal then { s with page } else opened (some 0) page)

/-- Goes back to a line, if there is one to go back to. -/
def flowTo : Option Nat → Flow
  | some index => .jump index
  | none => .next

/-- Meets `#loop`. -/
def closeLoop (v : Visit) (s : Pass σ ρ) : Except Fault Flow × Pass σ ρ :=
  if !v.calculate then (.ok .next, { s with page := s.page.previewLoopWord v .closing })
  else if s.conditions.isTaken then
    let (outcome, loops) := s.loops.close s.conditions.depth
    ((outcome.map flowTo).mapError .structural, { s with loops })
  else (.ok .next, s)

/-- Meets `#break`, which outside of any loop ends the document. -/
def leaveLoop (v : Visit) (s : Pass σ ρ) : Except Fault Flow × Pass σ ρ :=
  if !v.calculate then (.ok .next, { s with page := s.page.previewLoopWord v .leave })
  else if s.isLive then
    match s.loops.leave? with
    | some loops => (.ok .next, { s with loops })
    | none => (.ok .stop, s)
  else (.ok .next, s)

/-- Meets `#continue`. -/
def continueLoop (v : Visit) (s : Pass σ ρ) : Except Fault Flow × Pass σ ρ :=
  if !v.calculate then (.ok .next, { s with page := s.page.previewLoopWord v .next })
  else if s.isLive then
    let (outcome, loops, conditions) := s.loops.advance s.conditions
    ((outcome.map flowTo).mapError .structural, { s with loops, conditions })
  else (.ok .next, s)

/-- Visits a line with a branch word, or with content. -/
def visitContent (v : Visit) (word : Option BranchWord) (body : List Char) (s : Pass σ ρ) :
    Except Fault Unit × Pass σ ρ :=
  match s.conditions.enter word with
  | .error e => (.error (.structural e), s)
  | .ok conditions =>
    let (outcome, conditions, page) :=
      s.page.content v s.loops.isStopped word body conditions
    (outcome, { s with conditions, page })

/-- Goes on with the next line after a line that only touches the page. -/
def onPage (result : Except Fault Unit × Page σ ρ) (s : Pass σ ρ) :
    Except Fault Unit × Pass σ ρ :=
  (result.1, { s with page := result.2 })

/-- Visits a line that leads to the next one. -/
def visitPlain (v : Visit) (index : Nat) (form : LineForm) (s : Pass σ ρ) :
    Except Fault Unit × Pass σ ρ :=
  match form with
  | .blank =>
    s.onPage (.ok (), s.page.writeIf (s.page.visible && (!v.calculate || s.isLive))
      [.openParagraph v.anchor, .text "&nbsp;", .closeParagraph, .lineEnd])
  | .toggle t => s.onPage (.ok (), s.page.applyToggle v.calculate t)
  | .round argument => s.onPage (s.page.round v.calculate argument)
  | .plot kind => s.onPage (s.page.plot v s.isLive kind)
  | .branch word rest => s.visitContent v (some word) rest
  | .content => s.visitContent v none v.chars
  | .loop _ argument => s.enterLoop v index argument

/-- What a visit to a line knows. -/
def visit (calculate : Bool) (line : Line) (index : Nat) (s : Pass σ ρ) : Visit where
  calculate
  number := index + 1
  anchor := if s.loops.isFirstIteration then some (index + 1) else none
  chars := line.chars

/-- Visits a line. -/
def step (calculate : Bool) (line : Line) (index : Nat) (s : Pass σ ρ) :
    Except Fault Flow × Pass σ ρ :=
  let v := s.visit calculate line index
  match line.form with
  | .loop .closing _ => s.closeLoop v
  | .loop .leave _ => s.leaveLoop v
  | .loop .next _ => s.continueLoop v
  | form =>
    let (outcome, s) := s.visitPlain v index form
    (outcome.map fun _ => .next, s)

end Pass

end Worksheet
