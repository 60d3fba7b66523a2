/-
Engines that never ask for a pass to be cancelled.

With such an engine, the cancellation flag of a pass stays as it is, so a pass that is not
cancelled from outside visits its lines until it ends by itself.

* `Steady` — no call of the engine asks for the pass to be cancelled;
* `Page.cancel_showSegments` — showing a line leaves the flag as it is;
* `Pass.tick_of_quiet` — a pass whose flag is lowered makes its next step.
-/
import Worksheet.Arithmetic.Engine
import Worksheet.Proofs.Trajectory

namespace Worksheet

/-- An engine that never asks for the pass to be cancelled. -/
class Steady (σ : Type) [MathEngine σ] : Prop where
  parse_cancels : ∀ text inputs (e : σ), (MathEngine.parse text inputs e).1.cancels = false
  calculate_cancels : ∀ e : σ, (MathEngine.calculate e).cancels = false
  wantsStop : ∀ e : σ, MathEngine.wantsStop e = false

instance : Steady Arithmetic.Engine where
  parse_cancels _ _ _ := rfl
  calculate_cancels _ := rfl
  wantsStop _ := rfl

theorem CancelFlag.raiseIf_false (t : CancelFlag) : t.raiseIf false = t := by
  show (⟨t.raised || false⟩ : CancelFlag) = t
  rw [Bool.or_false]

variable {σ ρ : Type}

namespace Page

theorem cancel_writeIf (condition : Bool) (pieces : List Piece) (p : Page σ ρ) :
    (p.writeIf condition pieces).cancel = p.cancel := by
  rw [writeIf]
  split
  · rfl
  · rfl

variable [MathEngine σ]

theorem cancel_showExpression (shows calculate : Bool) (p : Page σ ρ) :
    (p.showExpression shows calculate).2.cancel = p.cancel := by
  rw [showExpression]
  split
  · split
    · rfl
    · rfl
  · rfl

variable [Steady σ]

theorem cancel_parse (text : String) (p : Page σ ρ) : (p.parse text).2.cancel = p.cancel := by
  show p.cancel.raiseIf (MathEngine.parse text p.inputs p.engine).1.cancels = p.cancel
  rw [Steady.parse_cancels, CancelFlag.raiseIf_false]

theorem cancel_calculate (p : Page σ ρ) : p.calculate.2.cancel = p.cancel := by
  show p.cancel.raiseIf (MathEngine.calculate p.engine).cancels = p.cancel
  rw [Steady.calculate_cancels, CancelFlag.raiseIf_false]

theorem cancel_evaluate (text : String) (p : Page σ ρ) :
    (p.evaluate text).2.cancel = p.cancel := by
  have hparse := p.cancel_parse text
  rw [evaluate]
  generalize p.parse text = r at hparse ⊢
  rcases r with ⟨e | _, q⟩
  · exact hparse
  · dsimp only at hparse ⊢
    have hcalculate := q.cancel_calculate
    generalize q.calculate = r at hcalculate ⊢
    rcases r with ⟨e | _, r⟩
    · exact hcalculate.trans hparse
    · exact hcalculate.trans hparse

theorem cancel_expression (v : Visit) (shows isCondition : Bool) (text : String)
    (p : Page σ ρ) : (p.expression v shows isCondition text).2.cancel = p.cancel := by
  have hparse := p.cancel_parse text
  rw [expression]
  generalize p.parse text = r at hparse ⊢
  rcases r with ⟨e | _, q⟩
  · exact hparse
  · dsimp only at hparse ⊢
    split
    · have hcalculate := q.cancel_calculate
      generalize q.calculate = r at hcalculate ⊢
      rcases r with ⟨e | _, r⟩
      · exact hcalculate.trans hparse
      · exact (cancel_showExpression _ _ r).trans (hcalculate.trans hparse)
    · exact (cancel_showExpression _ _ q).trans hparse

theorem cancel_walk (v : Visit) (shows isCondition : Bool) (rest : List Segment)
    (value : Option Complex) (p : Page σ ρ) :
    (p.walk v shows isCondition rest value).2.cancel = p.cancel := by
  induction rest generalizing value p with
  | nil => rfl
  | cons s rest ih =>
    have hexpression := p.cancel_expression v shows isCondition s.text
    rw [walk]
    split
    · generalize p.expression v shows isCondition s.text = r at hexpression ⊢
      rcases r with ⟨(_ | _) | _, q⟩
      · exact (ih _ _).trans hexpression
      · exact hexpression
      · exact (ih _ _).trans hexpression
    · exact (ih _ _).trans (cancel_writeIf _ _ p)

/-- Showing a line leaves the cancellation flag as it is. -/
theorem cancel_showSegments (v : Visit) (word : Option BranchWord) (body : List Char)
    (p : Page σ ρ) : (p.showSegments v word body).2.cancel = p.cancel := by
  rw [showSegments]
  dsimp only
  generalize (p.visible && (!v.calculate || word.isNone)) = shows
  generalize segments (p.mode == .valueOnly) body = all
  have hwalk := cancel_walk v shows word.isSome (leadingMarkup v all).2 none
    (p.writeIf shows (headPieces v word all ++ (leadingMarkup v all).1))
  rw [cancel_writeIf] at hwalk
  generalize walk v shows word.isSome (leadingMarkup v all).2 none
    (p.writeIf shows (headPieces v word all ++ (leadingMarkup v all).1)) = r at hwalk ⊢
  rcases r with ⟨e | value, q⟩
  · exact hwalk
  · exact (cancel_writeIf _ _ q).trans hwalk

end Page

namespace Pass

variable [MathEngine σ] [Steady σ] {lines : Array Line} {i j k : Nat} {s t : Pass σ ρ}

/-- A pass with a steady engine is cancelled only from outside. -/
theorem isCancelled_eq (h : s.page.cancel.raised = false) : s.isCancelled = false := by
  rw [isCancelled, h, Steady.wantsStop]
  rfl

variable [Plotter ρ σ]

theorem tick_of_quiet {l : Line} (hl : lines[i]? = some l)
    (hquiet : s.page.cancel.raised = false) :
    s.tick true lines i = follow l i (s.step true l i) := by
  rw [tick, hl]
  dsimp only
  rw [isCancelled_eq hquiet]
  rfl

theorem Reaches.step {l : Line} (hl : lines[i]? = some l)
    (hquiet : s.page.cancel.raised = false) (hstep : s.step true l i = (.ok .next, t)) :
    Reaches true lines i s (i + 1) t := by
  apply Reaches.single
  rw [tick_of_quiet hl hquiet, hstep]
  rfl

omit [Steady σ] in
theorem Reaches.at (h : Reaches true lines i s j t) (hk : j = k) : Reaches true lines i s k t :=
  hk ▸ h

end Pass

end Worksheet
