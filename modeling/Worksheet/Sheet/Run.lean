/-
A whole pass.

A pass visits lines until it moves past the last one, meets a `#break` outside of
any loop, is cancelled, or meets a fault that ends it.  Every other fault is
reported in the output and the pass goes on with the next line.

A pass always ends.  Going back in the sheet costs an iteration of an open loop, and
`potential` weights what is left of the loops so that an iteration of a loop
outweighs all lines from its body on, each of which may open a loop of its own.
`Pass.potential_tick` says that every step lowers it, so `Pass.run` is a total
function.

* `Pass.tick` — one step, with what follows from it;
* `Pass.run` — all steps from a position on.
-/
import Worksheet.Sheet.Step

namespace Worksheet

/-- How a pass ended. -/
inductive Ending where
  | completed
  | stopped
  | cancelled
  | aborted
  deriving DecidableEq, Repr

namespace Pass

variable {σ ρ : Type}

/-! ### Paying for a step -/

/-- The base of the weights: larger by two than any number of iterations. -/
def base (s : Pass σ ρ) : Nat :=
  max s.loops.defaultCount maxIterationCount + 2

/-- What the loops can gain at a line: the iterations of a block opened there. -/
def gain (base lines index : Nat) : Nat :=
  (base - 2) * Nat.pow base (lines - (index + 1))

/-- What a step may do: it leaves the count of blocks without one as it is, and either
goes back to a line and pays for that, or gains no more than a new block. -/
def Pays (lines index : Nat) (s : Pass σ ρ) (result : Except Fault Flow × Pass σ ρ) : Prop :=
  result.2.loops.defaultCount = s.loops.defaultCount ∧
    match result.1 with
    | .ok (.jump next) =>
      result.2.loops.weight s.base lines + Nat.pow s.base (lines - next) ≤
        s.loops.weight s.base lines
    | _ =>
      result.2.loops.weight s.base lines ≤
        s.loops.weight s.base lines + gain s.base lines index

/-- A step that does not touch the loops pays. -/
theorem pays_of_loops_eq {lines index : Nat} {s t : Pass σ ρ} {r : Except Fault Flow}
    (ht : t.loops = s.loops) (hr : ∀ next, r ≠ .ok (.jump next)) :
    Pays lines index s (r, t) := by
  refine ⟨congrArg Loops.defaultCount ht, ?_⟩
  have hle : t.loops.weight s.base lines ≤
      s.loops.weight s.base lines + gain s.base lines index := by
    rw [ht]
    exact Nat.le_add_right _ _
  rcases r with e | (_ | next | _)
  · exact hle
  · exact hle
  · exact absurd rfl (hr next)
  · exact hle

/-- What follows from a step: the pass ends, or goes on at a line. -/
inductive Progress (σ ρ : Type) where
  | done (ending : Ending) (s : Pass σ ρ)
  | go (cursor : Nat) (s : Pass σ ρ)

/-- Writes pieces of output. -/
def write (pieces : List Piece) (s : Pass σ ρ) : Pass σ ρ :=
  { s with page := s.page.write pieces }

/-- Goes on after a step at a line. -/
def follow (line : Line) (cursor : Nat) (result : Except Fault Flow × Pass σ ρ) :
    Progress σ ρ :=
  match result with
  | (.ok .next, s) => .go (cursor + 1) s
  | (.ok (.jump index), s) => .go index s
  | (.ok .stop, s) => .done .stopped s
  | (.error fault, s) =>
    if fault.isFatal then .done .aborted (s.write [.notice fault.message])
    else .go (cursor + 1) (s.write [.lineError line.text (cursor + 1) fault.message])

/-- What is left of a pass at a position: the lines ahead, and the iterations of the
open loops. -/
def potential (lines cursor : Nat) (s : Pass σ ρ) : Nat :=
  Nat.pow s.base (lines - cursor) + s.loops.weight s.base lines

theorem base_congr {s t : Pass σ ρ} (h : t.loops.defaultCount = s.loops.defaultCount) :
    t.base = s.base := by
  simp [base, h]

/-- A step that pays lowers what is left. -/
theorem potential_follow {lines cursor next : Nat} {line : Line} {s t : Pass σ ρ}
    {result : Except Fault Flow × Pass σ ρ} (hc : cursor < lines)
    (hp : Pays lines cursor s result) (h : follow line cursor result = .go next t) :
    t.potential lines next < s.potential lines cursor := by
  obtain ⟨hu, hw⟩ := hp
  have hbase : 2 ≤ s.base := Nat.le_add_left _ _
  have hpow : Nat.pow s.base (lines - cursor) = s.base * Nat.pow s.base (lines - (cursor + 1)) := by
    rw [show lines - cursor = lines - (cursor + 1) + 1 by omega]
    exact Nat.mul_comm _ _
  have hpos : 0 < Nat.pow s.base (lines - (cursor + 1)) := Nat.pow_pos (by omega)
  have hforward : ∀ u : Pass σ ρ, u.loops.defaultCount = s.loops.defaultCount →
      u.loops.weight s.base lines ≤
        s.loops.weight s.base lines + gain s.base lines cursor →
      u.potential lines (cursor + 1) < s.potential lines cursor := by
    intro u hu hw
    unfold potential
    rw [base_congr hu, hpow]
    unfold gain at hw
    obtain ⟨b, hb⟩ : ∃ b, s.base = b + 2 := ⟨s.base - 2, by omega⟩
    rw [hb] at hw hpos ⊢
    rw [Nat.add_sub_cancel] at hw
    rw [Nat.add_mul]
    omega
  rcases result with ⟨e | (_ | index | _), u⟩
  · simp only [follow] at h
    split at h
    · cases h
    · cases h
      exact hforward _ hu hw
  · cases h
    exact hforward _ hu hw
  · cases h
    have hw' : t.loops.weight s.base lines + Nat.pow s.base (lines - next) ≤
        s.loops.weight s.base lines := hw
    unfold potential
    rw [base_congr hu]
    have : 0 < Nat.pow s.base (lines - cursor) := Nat.pow_pos (by omega)
    omega
  · cases h

/-! ### What a step does to the open loops -/

theorem pays_closeLoop (lines index : Nat) (v : Visit) (s : Pass σ ρ) :
    Pays lines index s (s.closeLoop v) := by
  unfold closeLoop
  split
  · exact pays_of_loops_eq rfl (by simp)
  split
  · refine ⟨Loops.defaultCount_close _ _, ?_⟩
    have hle := Loops.weight_close_le s.base lines s.conditions.depth s.loops
    rcases hc : s.loops.close s.conditions.depth with ⟨_ | (_ | next), loops⟩
    · rw [hc] at hle
      exact Nat.le_trans hle (Nat.le_add_right _ _)
    · rw [hc] at hle
      exact Nat.le_trans hle (Nat.le_add_right _ _)
    · exact Loops.weight_close_jump s.base lines _ hc
  · exact pays_of_loops_eq rfl (by simp)

theorem pays_leaveLoop (lines index : Nat) (v : Visit) (s : Pass σ ρ) :
    Pays lines index s (s.leaveLoop v) := by
  unfold leaveLoop
  split
  · exact pays_of_loops_eq rfl (by simp)
  split
  · split
    · next loops h =>
      exact ⟨Loops.defaultCount_leave? h,
        Nat.le_trans (Loops.weight_leave? _ _ h) (Nat.le_add_right _ _)⟩
    · exact pays_of_loops_eq rfl (by simp)
  · exact pays_of_loops_eq rfl (by simp)

theorem pays_continueLoop (lines index : Nat) (v : Visit) (s : Pass σ ρ) :
    Pays lines index s (s.continueLoop v) := by
  unfold continueLoop
  split
  · exact pays_of_loops_eq rfl (by simp)
  split
  · refine ⟨Loops.defaultCount_advance _ _, ?_⟩
    have hle := Loops.weight_advance_le s.base lines s.conditions s.loops
    rcases hc : s.loops.advance s.conditions with ⟨_ | (_ | next), loops, conditions⟩
    · rw [hc] at hle
      exact Nat.le_trans hle (Nat.le_add_right _ _)
    · rw [hc] at hle
      exact Nat.le_trans hle (Nat.le_add_right _ _)
    · exact Loops.weight_advance_jump s.base lines hc
  · exact pays_of_loops_eq rfl (by simp)

variable [MathEngine σ]

theorem iterationCount_le {argument : List Char} {p q : Page σ ρ} {count : Nat}
    (h : p.iterationCount argument = (.ok count, q)) : count ≤ maxIterationCount := by
  unfold Page.iterationCount at h
  split at h
  · cases h
  · next value _ _ =>
    have hc : (Page.countOfValue value.re).mapError Fault.calculation = .ok count :=
      congrArg Prod.fst h
    unfold Page.countOfValue at hc
    split at hc
    · cases hc
    · split at hc
      · cases hc
      · cases hc
        exact Number.wholeBelow_le _ _

/-- `#repeat` opens no block, or one with a bounded number of iterations. -/
theorem loops_enterLoop (v : Visit) (index : Nat) (argument : List Char) (s : Pass σ ρ) :
    (s.enterLoop v index argument).2.loops = s.loops ∨
      ∃ count depth, (s.enterLoop v index argument).2.loops = s.loops.enter index count depth ∧
        count.getD s.loops.defaultCount ≤ max s.loops.defaultCount maxIterationCount := by
  unfold enterLoop
  split
  · exact .inl rfl
  split
  · exact .inl rfl
  split
  · exact .inr ⟨some 0, _, rfl, Nat.zero_le _⟩
  split
  · exact .inr ⟨none, _, rfl, Nat.le_max_left _ _⟩
  split
  · next count _ h =>
    exact .inr ⟨some count, _, rfl, Nat.le_trans (iterationCount_le h) (Nat.le_max_right _ _)⟩
  · next fault _ h =>
    rcases hf : fault.isFatal with _ | _
    · exact .inr ⟨some 0, _, rfl, Nat.zero_le _⟩
    · exact .inl rfl

variable [Plotter ρ σ]

/-- Apart from `#repeat`, a line that leads to the next one leaves the loops as they
are. -/
theorem loops_visitPlain (v : Visit) (index : Nat) (form : LineForm) (s : Pass σ ρ) :
    (s.visitPlain v index form).2.loops = s.loops ∨
      ∃ argument, (s.visitPlain v index form).2.loops =
        (s.enterLoop v index argument).2.loops := by
  cases form with
  | loop word argument => exact .inr ⟨argument, rfl⟩
  | branch word rest =>
    refine .inl ?_
    simp only [visitPlain, visitContent]
    split <;> rfl
  | content =>
    refine .inl ?_
    simp only [visitPlain, visitContent]
    split <;> rfl
  | _ => exact .inl rfl

/-- A line that leads to the next one adds no more weight than a block opened
there. -/
theorem weight_visitPlain (lines : Nat) (v : Visit) (index : Nat) (form : LineForm)
    (s : Pass σ ρ) :
    (s.visitPlain v index form).2.loops.weight s.base lines ≤
      s.loops.weight s.base lines + gain s.base lines index := by
  have henter : ∀ argument, (s.enterLoop v index argument).2.loops.weight s.base lines ≤
      s.loops.weight s.base lines + gain s.base lines index := by
    intro argument
    rcases s.loops_enterLoop v index argument with h | ⟨count, depth, h, hle⟩
    · rw [h]
      exact Nat.le_add_right _ _
    · rw [h, Loops.weight_enter, Nat.add_comm]
      refine Nat.add_le_add_left (Nat.mul_le_mul_right _ ?_) _
      simpa [base] using hle
  rcases s.loops_visitPlain v index form with h | ⟨argument, h⟩
  · rw [h]
    exact Nat.le_add_right _ _
  · rw [h]
    exact henter argument

theorem defaultCount_visitPlain (v : Visit) (index : Nat) (form : LineForm) (s : Pass σ ρ) :
    (s.visitPlain v index form).2.loops.defaultCount = s.loops.defaultCount := by
  rcases s.loops_visitPlain v index form with h | ⟨argument, h⟩
  · rw [h]
  · rw [h]
    rcases s.loops_enterLoop v index argument with h | ⟨count, depth, h, -⟩
    · rw [h]
    · rw [h, Loops.defaultCount_enter]

/-- Every step pays for what it does. -/
theorem pays_step (lines : Nat) (calculate : Bool) (line : Line) (index : Nat)
    (s : Pass σ ρ) : Pays lines index s (s.step calculate line index) := by
  unfold step
  split
  · exact pays_closeLoop lines index _ s
  · exact pays_leaveLoop lines index _ s
  · exact pays_continueLoop lines index _ s
  · refine ⟨defaultCount_visitPlain _ _ _ _, ?_⟩
    have hle := weight_visitPlain lines (s.visit calculate line index) index line.form s
    dsimp only
    generalize s.visitPlain (s.visit calculate line index) index line.form = result at hle ⊢
    rcases result with ⟨_ | _, t⟩
    · exact hle
    · exact hle

/-! ### Steps and passes -/

/-- Whether the pass was asked to stop. -/
def isCancelled (s : Pass σ ρ) : Bool :=
  s.page.cancel.raised || MathEngine.wantsStop s.page.engine

/-- One step, unless the pass is over. -/
def tick (calculate : Bool) (lines : Array Line) (cursor : Nat) (s : Pass σ ρ) :
    Progress σ ρ :=
  match lines[cursor]? with
  | none => .done .completed s
  | some line =>
    if s.isCancelled then .done .cancelled s
    else follow line cursor (s.step calculate line cursor)

/-- Every step lowers what is left of a pass. -/
theorem potential_tick {calculate : Bool} {lines : Array Line} {cursor next : Nat}
    {s t : Pass σ ρ} (h : s.tick calculate lines cursor = .go next t) :
    t.potential lines.size next < s.potential lines.size cursor := by
  unfold tick at h
  split at h
  · cases h
  · next line hl =>
    have hc : cursor < lines.size := (Array.getElem?_eq_some_iff.mp hl).1
    split at h
    · cases h
    · exact potential_follow hc (pays_step lines.size calculate line cursor s) h

/-- Visits lines from a position on until the pass ends. -/
def run (calculate : Bool) (lines : Array Line) (cursor : Nat) (s : Pass σ ρ) :
    Ending × Pass σ ρ :=
  match _h : s.tick calculate lines cursor with
  | .done ending s => (ending, s)
  | .go next s => s.run calculate lines next
termination_by s.potential lines.size cursor
decreasing_by exact potential_tick _h

end Pass

end Worksheet
