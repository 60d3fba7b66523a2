/-
The steps of a pass, one after the other.

A pass moves from place to place in a sheet; a place is a position together with the
state in which the pass comes there.  `Pass.Reaches` relates the places of one pass,
and what holds of every place is proved by induction on it, from what one step does.

* `Loops.Move` — all that one step can do to the open blocks, with `Pass.move_step`;
* `Pass.Reaches` — the places that a pass comes to, with `Pass.run_eq_of_reaches`;
* `Pass.exists_after_eq_done` — a pass ends after a bounded number of steps.
-/
import Worksheet.Arithmetic.Engine
import Worksheet.Workbench

namespace Worksheet

/-! ### What a step does to the open blocks -/

namespace Loops

/-- A further iteration uses one up and starts at the same line. -/
theorem again?_eq_some {f g : Repetition} (h : f.again? = some g) :
    g.start = f.start ∧ g.groups = f.groups ∧ g.iteration = f.iteration + 1 ∧
      g.remaining + 1 = f.remaining ∧ 0 < g.remaining := by
  rw [Repetition.again?] at h
  split at h
  · cases h
  · next hr =>
    obtain rfl := Option.some.inj h
    refine ⟨rfl, rfl, rfl, ?_, ?_⟩
    · show f.remaining - 1 + 1 = f.remaining
      omega
    · show 0 < f.remaining - 1
      omega

/-- No further iteration means that this one is the last. -/
theorem again?_eq_none_iff {f : Repetition} : f.again? = none ↔ f.remaining ≤ 1 := by
  rw [Repetition.again?]
  split
  · next hle => exact iff_of_true rfl hle
  · next hlt => exact iff_of_false (by simp) hlt

/-- A change of the open blocks by a step at a line, given where it goes back to. -/
inductive Move (index : Nat) : List Repetition → Option Nat → List Repetition → Prop
  | stay (blocks : List Repetition) : Move index blocks none blocks
  /-- `#repeat` opens a block that starts at its own line. -/
  | enter (count depth : Nat) (blocks : List Repetition) :
    Move index blocks none (.first index count depth :: blocks)
  /-- `#loop` closes the innermost block. -/
  | close (f : Repetition) (rest : List Repetition) : Move index (f :: rest) none rest
  /-- `#break`, or `#continue` in the last iteration, stops the innermost block. -/
  | stop (f : Repetition) (rest : List Repetition) :
    Move index (f :: rest) none (f.stop :: rest)
  /-- `#loop` or `#continue` goes back for a further iteration. -/
  | again {f g : Repetition} (rest : List Repetition) (h : f.again? = some g) :
    Move index (f :: rest) (some g.bodyStart) (g :: rest)

/-- Where the outcome of `#loop` or `#continue` goes back to. -/
def backTo (outcome : Except StructureError (Option Nat)) : Option Nat :=
  outcome.toOption.join

theorem move_close (index depth : Nat) (s : Loops) :
    Move index s.blocks (backTo (s.close depth).1) (s.close depth).2.blocks := by
  obtain ⟨blocks, count⟩ := s
  cases blocks with
  | nil => exact .stay _
  | cons f rest =>
    simp only [close]
    split
    · split
      · exact .close f rest
      · exact .stay _
    · split
      · next g hg => exact .again rest hg
      · exact .close f rest

theorem move_advance (index : Nat) (c : Conditions) (s : Loops) :
    Move index s.blocks (backTo (s.advance c).1) (s.advance c).2.1.blocks := by
  obtain ⟨blocks, count⟩ := s
  cases blocks with
  | nil => exact .stay _
  | cons f rest =>
    simp only [advance]
    split
    · exact .stay _
    · split
      · next g hg => exact .again rest hg
      · exact .stop f rest

theorem move_leave? (index : Nat) {s t : Loops} (h : s.leave? = some t) :
    Move index s.blocks none t.blocks := by
  obtain ⟨blocks, count⟩ := s
  cases blocks with
  | nil => cases h
  | cons f rest =>
    obtain rfl := Option.some.inj h
    exact .stop f rest

end Loops

namespace Pass

variable {σ ρ : Type}

/-- Where the outcome of a step goes back to. -/
def jumpOf : Except Fault Flow → Option Nat
  | .ok (.jump next) => some next
  | _ => none

theorem jumpOf_loopOutcome (r : Except StructureError (Option Nat)) :
    jumpOf ((r.map flowTo).mapError .structural) = Loops.backTo r := by
  rcases r with e | (_ | next) <;> rfl

theorem jumpOf_plainOutcome (r : Except Fault Unit) :
    jumpOf (r.map fun _ => Flow.next) = none := by
  rcases r with e | _ <;> rfl

/-- A line that leads to the next one fails only if what it asks for does. -/
theorem eq_error_of_plainOutcome {r : Except Fault Unit} {fault : Fault}
    (h : (r.map fun _ => Flow.next) = .error fault) : r = .error fault := by
  rcases r with fault' | _
  · exact congrArg Except.error (Except.error.inj h)
  · cases h

theorem move_closeLoop (index : Nat) (v : Visit) (s : Pass σ ρ) :
    Loops.Move index s.loops.blocks (jumpOf (s.closeLoop v).1)
      (s.closeLoop v).2.loops.blocks := by
  rw [closeLoop]
  split
  · exact .stay _
  split
  · dsimp only
    rw [jumpOf_loopOutcome]
    exact Loops.move_close index _ _
  · exact .stay _

theorem move_leaveLoop (index : Nat) (v : Visit) (s : Pass σ ρ) :
    Loops.Move index s.loops.blocks (jumpOf (s.leaveLoop v).1)
      (s.leaveLoop v).2.loops.blocks := by
  rw [leaveLoop]
  split
  · exact .stay _
  split
  · split
    · next loops h => exact Loops.move_leave? index h
    · exact .stay _
  · exact .stay _

theorem move_continueLoop (index : Nat) (v : Visit) (s : Pass σ ρ) :
    Loops.Move index s.loops.blocks (jumpOf (s.continueLoop v).1)
      (s.continueLoop v).2.loops.blocks := by
  rw [continueLoop]
  split
  · exact .stay _
  split
  · dsimp only
    rw [jumpOf_loopOutcome]
    exact Loops.move_advance index _ _
  · exact .stay _

theorem potential_pos (lines cursor : Nat) (s : Pass σ ρ) : 0 < s.potential lines cursor := by
  have hpow : 0 < Nat.pow s.base (lines - cursor) := Nat.pow_pos (Nat.succ_pos _)
  rw [potential]
  omega

/-- What follows a step that does not end the pass: the position it leads to, and its
state, with a report of its fault at most. -/
theorem follow_go {line : Line} {i j : Nat} {r : Except Fault Flow × Pass σ ρ}
    {t : Pass σ ρ} (h : follow line i r = .go j t) :
    j = (jumpOf r.1).getD (i + 1) ∧ t.loops = r.2.loops ∧ t.conditions = r.2.conditions := by
  rcases r with ⟨fault | (_ | next | _), u⟩
  · simp only [follow] at h
    split at h
    · cases h
    · cases h
      exact ⟨rfl, rfl, rfl⟩
  · cases h
    exact ⟨rfl, rfl, rfl⟩
  · cases h
    exact ⟨rfl, rfl, rfl⟩
  · cases h

/-- What a report of a fault leaves alone. -/
theorem follow_go_inputs {line : Line} {i j : Nat} {r : Except Fault Flow × Pass σ ρ}
    {t : Pass σ ρ} (h : follow line i r = .go j t) :
    t.page.inputs = r.2.page.inputs ∧ ∀ fault, r.1 = .error fault → fault.isFatal = false := by
  rcases r with ⟨fault | (_ | next | _), u⟩
  · simp only [follow] at h
    split at h
    · cases h
    · next hfatal =>
      cases h
      refine ⟨rfl, ?_⟩
      intro fault' hfault
      cases hfault
      simpa using hfatal
  · cases h
    exact ⟨rfl, by simp⟩
  · cases h
    exact ⟨rfl, by simp⟩
  · cases h

variable [MathEngine σ] [Plotter ρ σ]

theorem move_visitPlain (v : Visit) (index : Nat) (form : LineForm) (s : Pass σ ρ) :
    Loops.Move index s.loops.blocks none (s.visitPlain v index form).2.loops.blocks := by
  have henter : ∀ argument, Loops.Move index s.loops.blocks none
      (s.enterLoop v index argument).2.loops.blocks := by
    intro argument
    rcases s.loops_enterLoop v index argument with h | ⟨count, depth, h, -⟩
    · rw [h]
      exact .stay _
    · rw [h]
      exact .enter _ depth _
  rcases s.loops_visitPlain v index form with h | ⟨argument, h⟩
  · rw [h]
    exact .stay _
  · rw [h]
    exact henter argument

/-- Every step changes the open blocks by one of the moves. -/
theorem move_step (calculate : Bool) (line : Line) (index : Nat) (s : Pass σ ρ) :
    Loops.Move index s.loops.blocks (jumpOf (s.step calculate line index).1)
      (s.step calculate line index).2.loops.blocks := by
  rw [step]
  split
  · exact move_closeLoop index _ s
  · exact move_leaveLoop index _ s
  · exact move_continueLoop index _ s
  · dsimp only
    rw [jumpOf_plainOutcome]
    exact move_visitPlain _ index _ s

/-! ### The places of a pass -/

/-- What a pass does before it goes on: it visits a line, and nobody asked it to stop. -/
theorem tick_go {calculate : Bool} {lines : Array Line} {i j : Nat} {s t : Pass σ ρ}
    (h : s.tick calculate lines i = .go j t) :
    ∃ line, lines[i]? = some line ∧ s.isCancelled = false ∧
      follow line i (s.step calculate line i) = .go j t := by
  rw [tick] at h
  split at h
  · cases h
  · next line hl =>
    split at h
    · cases h
    · next hc => exact ⟨line, hl, by simpa using hc, h⟩

/-- From position `i` and state `s`, a pass comes to another position and state. -/
inductive Reaches (calculate : Bool) (lines : Array Line) (i : Nat) (s : Pass σ ρ) :
    Nat → Pass σ ρ → Prop
  | here : Reaches calculate lines i s i s
  | onward {j k : Nat} {t u : Pass σ ρ} (h : Reaches calculate lines i s j t)
      (ht : t.tick calculate lines j = .go k u) : Reaches calculate lines i s k u

variable {calculate : Bool} {lines : Array Line}

theorem Reaches.trans {i j k : Nat} {s t u : Pass σ ρ} (h : Reaches calculate lines i s j t)
    (h' : Reaches calculate lines j t k u) : Reaches calculate lines i s k u := by
  induction h' with
  | here => exact h
  | onward _ ht ih => exact ih.onward ht

theorem Reaches.single {i j : Nat} {s t : Pass σ ρ} (h : s.tick calculate lines i = .go j t) :
    Reaches calculate lines i s j t :=
  .onward .here h

/-- What every step keeps of the groups and blocks holds at every place of a pass, if it did at
first. -/
theorem Reaches.keeps {I : Conditions → Loops → Prop} {i j : Nat} {s t : Pass σ ρ}
    (hr : Reaches calculate lines i s j t)
    (hstep : ∀ (k : Nat) (line : Line) (u : Pass σ ρ), lines[k]? = some line →
      I u.conditions u.loops →
      I (u.step calculate line k).2.conditions (u.step calculate line k).2.loops)
    (h : I s.conditions s.loops) : I t.conditions t.loops := by
  induction hr with
  | here => exact h
  | onward _ ht ih =>
    obtain ⟨line, hl, -, hfollow⟩ := tick_go ht
    obtain ⟨-, hloops, hconditions⟩ := follow_go hfollow
    rw [hloops, hconditions]
    exact hstep _ line _ hl ih

theorem run_of_go {i j : Nat} {s t : Pass σ ρ} (h : s.tick calculate lines i = .go j t) :
    s.run calculate lines i = t.run calculate lines j := by
  rw [run]
  split
  · next hd => rw [h] at hd; cases hd
  · next hg => rw [h] at hg; cases hg; rfl

theorem run_of_done {i : Nat} {s t : Pass σ ρ} {ending : Ending}
    (h : s.tick calculate lines i = .done ending t) :
    s.run calculate lines i = (ending, t) := by
  rw [run]
  split
  · next hd => rw [h] at hd; cases hd; rfl
  · next hg => rw [h] at hg; cases hg

/-- A pass ends in the same way from all its places. -/
theorem run_eq_of_reaches {i j : Nat} {s t : Pass σ ρ} (h : Reaches calculate lines i s j t) :
    s.run calculate lines i = t.run calculate lines j := by
  induction h with
  | here => rfl
  | onward _ ht ih => rw [ih, run_of_go ht]

/-- A pass ends at one of its places. -/
theorem exists_reaches_done (calculate : Bool) (lines : Array Line) (i : Nat) (s : Pass σ ρ) :
    ∃ j t, Reaches calculate lines i s j t ∧
      t.tick calculate lines j =
        .done (s.run calculate lines i).1 (s.run calculate lines i).2 := by
  fun_induction run calculate lines i s with
  | case1 i s ending t h => exact ⟨i, s, .here, h⟩
  | case2 i s j t h ih =>
    obtain ⟨k, u, hu, hdone⟩ := ih
    exact ⟨k, u, (Reaches.single h).trans hu, hdone⟩

/-- A pass is completed where no line is left. -/
theorem tick_completed {i : Nat} {s t : Pass σ ρ}
    (h : s.tick calculate lines i = .done .completed t) : lines[i]? = none ∧ t = s := by
  rw [tick] at h
  split at h
  · next hl =>
    cases h
    exact ⟨hl, rfl⟩
  · next line hl =>
    split at h
    · cases h
    · unfold follow at h
      split at h
      · cases h
      · cases h
      · cases h
      · split at h
        · cases h
        · cases h

/-! ### The number of steps -/

/-- What is left of a pass after a number of steps. -/
def after (calculate : Bool) (lines : Array Line) : Nat → Nat → Pass σ ρ → Progress σ ρ
  | 0, i, s => .go i s
  | n + 1, i, s =>
    match s.tick calculate lines i with
    | .done ending t => .done ending t
    | .go j t => after calculate lines n j t

/-- The place that a pass goes on at, unless it is over. -/
def Progress.place? : Progress σ ρ → Option (Nat × Pass σ ρ)
  | .done _ _ => none
  | .go i s => some (i, s)

theorem reaches_of_after {n i j : Nat} {s t : Pass σ ρ}
    (h : (after calculate lines n i s).place? = some (j, t)) :
    Reaches calculate lines i s j t := by
  induction n generalizing i s with
  | zero =>
    cases h
    exact .here
  | succ n ih =>
    rw [after] at h
    split at h
    · cases h
    · next k u hu => exact (Reaches.single hu).trans (ih h)

/-- A pass that is over after a number of steps ends as `run` says. -/
theorem run_of_after {n i : Nat} {s t : Pass σ ρ} {ending : Ending}
    (h : after calculate lines n i s = .done ending t) :
    s.run calculate lines i = (ending, t) := by
  induction n generalizing i s with
  | zero => cases h
  | succ n ih =>
    rw [after] at h
    split at h
    · next hdone =>
      cases h
      exact run_of_done hdone
    · next j u hgo =>
      rw [run_of_go hgo]
      exact ih h

/-- A pass ends, as `run` says, after no more steps than its potential. -/
theorem exists_after_eq_done (i : Nat) (s : Pass σ ρ) :
    ∃ n ≤ s.potential lines.size i, ∃ ending t,
      after calculate lines n i s = .done ending t ∧
        s.run calculate lines i = (ending, t) := by
  -- the potential pays for each step, so induction on a bound of it
  have bounded : ∀ b i (s : Pass σ ρ), s.potential lines.size i ≤ b → ∃ n ≤ b, ∃ ending t,
      after calculate lines n i s = .done ending t ∧
        s.run calculate lines i = (ending, t) := by
    intro b
    induction b with
    | zero =>
      intro i s hb
      have hpos := potential_pos lines.size i s
      omega
    | succ b ih =>
      intro i s hb
      rcases ht : s.tick calculate lines i with ⟨ending, t⟩ | ⟨j, t⟩
      · refine ⟨1, by omega, ending, t, ?_, run_of_done ht⟩
        simp only [after, ht]
      · have hlt := potential_tick ht
        obtain ⟨n, hn, ending, u, hu, hrun⟩ := ih j t (by omega)
        refine ⟨n + 1, by omega, ending, u, ?_, ?_⟩
        · simp only [after, ht]
          exact hu
        · rw [run_of_go ht]
          exact hrun
  exact bounded _ i s (Nat.le_refl _)

end Pass

namespace Workbench

variable {σ ρ : Type} [MathEngine σ] [Plotter ρ σ]

/-- The state in which a pass starts. -/
def startPass (calculate : Bool) (inputs : List String) (w : Workbench σ ρ) : Pass σ ρ :=
  Pass.start inputs (w.preparedEngine calculate) w

/-- The pieces of a pass, in terms of how it ends. -/
theorem pieces_eq (source : String) (calculate : Bool) (inputs : List String)
    (w : Workbench σ ρ) :
    w.pieces source calculate inputs =
      let r := (w.startPass calculate inputs).run calculate (Sheet.lines source) 0
      (r.2.page.output.toList ++ (if r.1 = .completed then r.2.unclosed else []), r.2) := rfl

/-- A pass over a source comes to a position in some state. -/
def ComesTo (source : String) (calculate : Bool) (inputs : List String) (w : Workbench σ ρ)
    (i : Nat) (s : Pass σ ρ) : Prop :=
  Pass.Reaches calculate (Sheet.lines source) 0 (w.startPass calculate inputs) i s

/-- A workbench that has not been used, with the engine for real arithmetic and without a
plotter. -/
def fresh : Workbench Arithmetic.Engine SamplePlotter where
  engine := .initial
  plots := none
  settings := .initial
  cancel := .lowered

end Workbench

end Worksheet
