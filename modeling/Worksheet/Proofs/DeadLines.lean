/-
Dead lines.

A line is dead in a calculated sheet if a branch around it is not taken, or if the innermost
loop is stopped.  Nothing on a dead line is evaluated, with one exception: `#round` evaluates
its argument wherever it stands.  Each kind of line looks at the groups and the loops for
itself, so this is said of each of them in turn, and for every engine.

* `Pass.Dead` — a line is dead, once its own branch word was entered;
* `LineForm.roundExpression` — the expression that `#round` evaluates;
* `Pass.engine_of_dead`, `Pass.engine_of_round` — the engine after a visit;
* `Workbench.dead_line_evaluations` — what a dead line has the engine evaluate.
-/
import Worksheet.Proofs.Logged
import Worksheet.Proofs.Openings
import Worksheet.Proofs.Visits

namespace Worksheet

/-- The expression that `#round` evaluates: its argument, unless that is a whole number. -/
def LineForm.roundExpression : LineForm → Option String
  | .round argument =>
    if argument.isEmpty || ((Number.readInteger? argument).filter Number.fitsWord).isSome then none
    else some (String.ofList argument)
  | _ => none

namespace Pass

variable {σ ρ : Type}

/-- The groups at a line, once its own branch word was entered. -/
def groupsAt (form : LineForm) (s : Pass σ ρ) : Conditions :=
  match form with
  | .branch word _ =>
    match s.conditions.enter (some word) with
    | .ok c => c
    | .error _ => s.conditions
  | _ => s.conditions

/-- A line is dead: some branch around it is not taken, or the innermost loop is stopped. -/
def Dead (line : Line) (s : Pass σ ρ) : Prop :=
  (∃ b ∈ (s.groupsAt line.form).branches, b.taken = false) ∨
    ∃ f rest, s.loops.blocks = f :: rest ∧ f.isStopped = true

theorem dead_iff {line : Line} {s : Pass σ ρ} :
    s.Dead line ↔ live (s.groupsAt line.form).branches s.loops.blocks = false := by
  have hstopped : (∃ f rest, s.loops.blocks = f :: rest ∧ f.isStopped = true) ↔
      stopped s.loops.blocks = true := by
    rcases s.loops.blocks with _ | ⟨f, rest⟩
    · simp [stopped]
    · simp [stopped]
  rw [Dead, hstopped, live, Bool.and_eq_false_iff, List.all_eq_false, Bool.not_eq_false']
  simp

/-! ### The engine after a visit -/

variable [MathEngine σ] [Plotter ρ σ] {line : Line} {i : Nat} {s : Pass σ ρ}

omit [Plotter ρ σ] in
/-- Without an expression, `#round` leaves the engine alone. -/
theorem engine_round {argument : List Char} {p : Page σ ρ} :
    (p.round true argument).2.engine =
      match LineForm.roundExpression (.round argument) with
      | some text => (p.evaluate text).2.engine
      | none => p.engine := by
  rw [Page.round, LineForm.roundExpression]
  rcases argument.isEmpty with _ | _
  · rcases (Number.readInteger? argument).filter Number.fitsWord with _ | n
    · simp only [Bool.false_eq_true, if_false, if_true, Bool.false_or, Option.isSome_none]
      generalize p.evaluate (String.ofList argument) = r
      rcases r with ⟨e | value, q⟩
      · rfl
      · rfl
    · rfl
  · rfl

/-- A dead line leaves the engine alone, apart from an angle mode that it sets, unless it is a
`#round` with an expression. -/
theorem engine_of_dead (hs : s.conditions.Sound) (hdead : s.Dead line)
    (hround : line.form.roundExpression = none) :
    (s.step true line i).2.page.engine = s.page.engine ∨
      ∃ mode, line.form = .toggle (.angle mode) ∧
        (s.step true line i).2.page.engine = MathEngine.setAngleMode mode s.page.engine := by
  obtain ⟨text, form⟩ := line
  rw [dead_iff] at hdead
  cases form with
  | blank =>
    rw [step_blank_of_dead hs hdead]
    exact .inl rfl
  | toggle t =>
    cases t with
    | visibility visibility => cases visibility <;> exact .inl rfl
    | output mode => exact .inl rfl
    | angle mode => exact .inr ⟨mode, rfl, rfl⟩
    | scope scope => exact .inl rfl
  | round argument =>
    have hengine : (s.page.round true argument).2.engine = s.page.engine := by
      rw [engine_round, hround]
    exact .inl hengine
  | plot kind =>
    have hlive : s.isLive = false := by
      rw [isLive_eq hs]
      exact hdead
    refine .inl ?_
    show (s.page.plot _ s.isLive kind).2.engine = s.page.engine
    rw [hlive, Page.plot, if_pos]
    simp [visit]
  | content =>
    rw [step_content_of_dead hs hdead]
    exact .inl rfl
  | branch word rest =>
    refine .inl ?_
    rcases henter : s.conditions.enter (some word) with e | d
    · -- a word that does not fit is reported, and nothing else happens
      show (s.visitContent _ (some word) rest).2.page.engine = s.page.engine
      rw [visitContent, henter]
    · have hgroups : s.groupsAt (.branch word rest) = d := by
        simp only [groupsAt, henter]
      rw [hgroups] at hdead
      rw [step_branch_of_dead henter (hs.enter henter) hdead]
      rfl
  | loop word argument =>
    refine .inl ?_
    cases word with
    | opening =>
      rcases htaken : s.conditions.branches.all Branch.taken with _ | _
      · rw [step_repeat_of_untaken hs htaken]
      · have hstopped : stopped s.loops.blocks = true := by
          change live s.conditions.branches s.loops.blocks = false at hdead
          rw [live, htaken, Bool.true_and, Bool.not_eq_false'] at hdead
          exact hdead
        rw [step_repeat_of_stopped hs htaken hstopped]
    | closing =>
      show (s.closeLoop (s.visit true _ i)).2.page.engine = s.page.engine
      rw [closeLoop, if_neg (by simp [visit])]
      split <;> rfl
    | leave =>
      rw [step_leave_of_dead hs hdead]
    | next =>
      rw [step_next_of_dead hs hdead]

omit [Plotter ρ σ] in
/-- `#round` evaluates its expression, wherever it stands. -/
theorem engine_of_round [Plotter ρ σ] {text : String}
    (hround : line.form.roundExpression = some text) :
    (s.step true line i).2.page.engine = (s.page.evaluate text).2.engine := by
  obtain ⟨chars, form⟩ := line
  cases form with
  | round argument =>
    show (s.page.round true argument).2.engine = _
    rw [engine_round, hround]
  | _ => cases hround

end Pass

/-! ### A whole pass -/

namespace Workbench

section

variable {ρ : Type} [Plotter ρ (Logged Arithmetic.Engine)]

/-- **What a dead line has the engine evaluate**, in every sheet and with every engine state:
nothing, unless the line is a `#round` with an expression.  Then the variables, the last value
and the number of calculations stay as they are as well.  A `#round` with an expression hands
that to the engine and has it calculated, on a dead line as on any other. -/
theorem dead_line_evaluations (source : String) (inputs : List String)
    (w : Workbench Arithmetic.Engine ρ) {i : Nat} {s : Pass (Logged Arithmetic.Engine) ρ}
    {line : Line} (hs : w.logged.ComesTo source true inputs i s) (hdead : s.Dead line) :
    let before := s.page.engine
    let after := (s.step true line i).2.page.engine
    (line.form.roundExpression = none →
      after.evaluations = before.evaluations ∧ after.inner.store = before.inner.store ∧
        after.inner.value = before.inner.value ∧
        after.inner.calculations = before.inner.calculations) ∧
    ∀ text, line.form.roundExpression = some text →
      after.evaluations = before.evaluations ++
        match (MathEngine.parse text s.page.inputs before.inner).1.outcome with
        | .ok () => [.parse text, .calculate]
        | .error _ => [.parse text] := by
  have hsound : s.conditions.Sound := Pass.Reaches.sound hs Conditions.sound_initial
  refine ⟨?_, ?_⟩
  · intro hround
    -- the angle mode that a toggle may set is not one of these
    rcases Pass.engine_of_dead (i := i) hsound hdead hround with h | ⟨mode, -, h⟩
    · rw [h]
      exact ⟨rfl, rfl, rfl, rfl⟩
    · rw [h]
      exact ⟨rfl, rfl, rfl, rfl⟩
  · intro text hround
    rw [Pass.engine_of_round hround]
    exact Page.evaluations_evaluate text s.page

end

/-- An expression that fails, in a branch that is not taken. -/
theorem dead_line_evaluations_untaken :
    ∃ s, fresh.logged.ComesTo "#if 0\na = 1/0\n#end if" true [] 1 s ∧
      s.Dead ⟨"a = 1/0".toList, .content⟩ ∧
      (s.step true ⟨"a = 1/0".toList, .content⟩ 1).2.page.engine.evaluations =
        s.page.engine.evaluations := by
  have hplace : ∃ p ∈ (Pass.after true (Sheet.lines "#if 0\na = 1/0\n#end if") 1 0
      (fresh.logged.startPass true [])).place?, p.1 = 1 ∧
      live (p.2.groupsAt .content).branches p.2.loops.blocks = false := by
    decide +kernel
  obtain ⟨⟨i, s⟩, hp, rfl, hlive⟩ := hplace
  have hs : fresh.logged.ComesTo "#if 0\na = 1/0\n#end if" true [] 1 s :=
    Pass.reaches_of_after hp
  have hdead : s.Dead ⟨"a = 1/0".toList, .content⟩ := Pass.dead_iff.mpr hlive
  exact ⟨s, hs, hdead, ((dead_line_evaluations _ _ fresh hs hdead).1 rfl).1⟩

/-- A sheet with a `#round` in a branch that is not taken. -/
def deadRound : String :=
  "#if 0\n#round a = 5\n#end if"

/-- The `#round` of `deadRound` is dead, but its expression is evaluated and sets a variable. -/
theorem round_evaluated_in_dead_branch :
    ∃ s, fresh.logged.ComesTo deadRound true [] 1 s ∧
      (Sheet.lines deadRound)[1]? = some ⟨"#round a = 5".toList, .round "a = 5".toList⟩ ∧
      s.Dead ⟨"#round a = 5".toList, .round "a = 5".toList⟩ ∧
      let after := (s.step true ⟨"#round a = 5".toList, .round "a = 5".toList⟩ 1).2.page.engine
      after.evaluations = s.page.engine.evaluations ++ [.parse "a = 5", .calculate] ∧
        s.page.engine.inner.store.get? "a" = none ∧
        (after.inner.store.get? "a").isSome = true ∧
        after.inner.calculations = s.page.engine.inner.calculations + 1 := by
  have hplace : ∃ p ∈ (Pass.after true (Sheet.lines deadRound) 1 0
      (fresh.logged.startPass true [])).place?, p.1 = 1 ∧
      (Sheet.lines deadRound)[1]? = some ⟨"#round a = 5".toList, .round "a = 5".toList⟩ ∧
      live (p.2.groupsAt (.round "a = 5".toList)).branches p.2.loops.blocks = false ∧
      let after := (p.2.step true ⟨"#round a = 5".toList, .round "a = 5".toList⟩ 1).2.page.engine
      after.evaluations = p.2.page.engine.evaluations ++ [.parse "a = 5", .calculate] ∧
        (p.2.page.engine.inner.store.get? "a").isNone = true ∧
        (after.inner.store.get? "a").isSome = true ∧
        after.inner.calculations = p.2.page.engine.inner.calculations + 1 := by
    decide +kernel
  obtain ⟨⟨i, s⟩, hp, rfl, hl, hlive, hevaluations, hunset, hset, hcount⟩ := hplace
  exact ⟨s, Pass.reaches_of_after hp, hl, Pass.dead_iff.mpr hlive, hevaluations,
    Option.isNone_iff_eq_none.mp hunset, hset, hcount⟩

end Workbench

end Worksheet
