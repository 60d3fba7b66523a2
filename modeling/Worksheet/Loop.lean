/-
Open `#repeat` blocks.

A loop is run by moving back to the line after its `#repeat`.  Each block
remembers how many `#if` groups were open when it was entered; a `#loop` that is
met with another number of open groups overlaps a group instead of nesting with
it.

* `Loops.close` — meets `#loop`;
* `Loops.leave?` — meets `#break`;
* `Loops.advance` — meets `#continue`.
-/
import Worksheet.Condition

namespace Worksheet

/-- The iterations of a `#repeat` without a count, unless the settings say
otherwise. -/
def initialIterations : Nat :=
  100000

/-- An open `#repeat` block. -/
structure Repetition where
  /-- The index of the line that opened the block. -/
  start : Nat
  /-- How many iterations are left, the running one included; none once the loop
  was stopped. -/
  remaining : Nat
  /-- The number of the running iteration, counted from one. -/
  iteration : Nat
  /-- How many `#if` groups were open around the block. -/
  groups : Nat
  deriving DecidableEq, Repr

namespace Repetition

/-- A block in its first iteration. -/
def first (start count groups : Nat) : Repetition :=
  ⟨start, count, 1, groups⟩

/-- The index of the first line of the body. -/
def bodyStart (f : Repetition) : Nat :=
  f.start + 1

/-- The block in its next iteration, if there is one. -/
def again? (f : Repetition) : Option Repetition :=
  if f.remaining ≤ 1 then none
  else some { f with remaining := f.remaining - 1, iteration := f.iteration + 1 }

/-- The block without any iterations left. -/
def stop (f : Repetition) : Repetition :=
  { f with remaining := 0 }

/-- Whether the block has no iteration left to run, not even the present one. -/
def isStopped (f : Repetition) : Bool :=
  f.remaining == 0

end Repetition

/-- The open `#repeat` blocks of a pass. -/
structure Loops where
  /-- The open blocks, the innermost first. -/
  blocks : List Repetition
  /-- The iterations of a block without a count. -/
  defaultCount : Nat
  deriving DecidableEq, Repr

namespace Loops

/-- No block is open. -/
def initial (defaultCount : Nat) : Loops :=
  ⟨[], defaultCount⟩

/-- Whether the innermost block was stopped. -/
def isStopped (s : Loops) : Bool :=
  match s.blocks with
  | [] => false
  | f :: _ => f.isStopped

/-- Whether every open block is in its first iteration.  Anchors are only written
then, so that none is written twice. -/
def isFirstIteration (s : Loops) : Bool :=
  s.blocks.all fun f => f.iteration == 1

/-- Opens a block at a line, given the number of open groups. -/
def enter (line : Nat) (count : Option Nat) (depth : Nat) (s : Loops) : Loops :=
  { s with blocks := .first line (count.getD s.defaultCount) depth :: s.blocks }

/-- Meets `#loop` with a number of open groups; gives the line to go back to, if
there is a further iteration.  Where groups and blocks overlap, a running block
stays open, but one that was stopped is closed, so that the following lines are
shown again. -/
def close (depth : Nat) (s : Loops) : Except StructureError (Option Nat) × Loops :=
  match s.blocks with
  | [] => (.error .loopWithoutRepeat, s)
  | f :: rest =>
    if f.groups ≠ depth then
      (.error .entangled, if f.isStopped then { s with blocks := rest } else s)
    else
      match f.again? with
      | some f => (.ok (some f.bodyStart), { s with blocks := f :: rest })
      | none => (.ok none, { s with blocks := rest })

/-- Meets `#break`: stops the innermost block, if one is open. -/
def leave? (s : Loops) : Option Loops :=
  match s.blocks with
  | [] => none
  | f :: rest => some { s with blocks := f.stop :: rest }

/-- Meets `#continue`; gives the line to go back to, if there is a further
iteration.  The groups opened inside the body are closed before going back.  In
the last iteration the block is stopped instead, so that the rest of its body is
passed over while the ends of its groups still count. -/
def advance (c : Conditions) (s : Loops) :
    Except StructureError (Option Nat) × Loops × Conditions :=
  match s.blocks with
  | [] => (.error .continueWithoutRepeat, s, c)
  | f :: rest =>
    if c.depth < f.groups then (.error .entangled, s, c)
    else
      match f.again? with
      | some f =>
        (.ok (some f.bodyStart), { s with blocks := f :: rest }, c.closeTo f.groups)
      | none => (.ok none, { s with blocks := f.stop :: rest }, c)

/-! ### How much a stack of loops can still run

Weighting the iterations left in a block by a power that falls with its line
bounds the number of steps a pass can take: going back to the body of a block
costs one of its iterations, whose weight pays for every line that follows. -/

/-- The iterations left in some blocks, each weighted by the lines that follow its
`#repeat` in a sheet of `lines` lines. -/
def weightOf (base lines : Nat) : List Repetition → Nat
  | [] => 0
  | f :: rest => f.remaining * Nat.pow base (lines - f.bodyStart) + weightOf base lines rest

/-- The weight of the open blocks. -/
def weight (base lines : Nat) (s : Loops) : Nat :=
  weightOf base lines s.blocks

theorem weightOf_cons (base lines : Nat) (f : Repetition) (rest : List Repetition) :
    weightOf base lines (f :: rest) =
      f.remaining * Nat.pow base (lines - f.bodyStart) + weightOf base lines rest := rfl

theorem weight_enter (base lines line depth : Nat) (count : Option Nat) (s : Loops) :
    (s.enter line count depth).weight base lines =
      count.getD s.defaultCount * Nat.pow base (lines - (line + 1)) + s.weight base lines := by
  simp [enter, weight, weightOf_cons, Repetition.first, Repetition.bodyStart]

theorem weight_leave? (base lines : Nat) {s t : Loops} (h : s.leave? = some t) :
    t.weight base lines ≤ s.weight base lines := by
  unfold leave? at h
  split at h
  · cases h
  · next f rest hf =>
    obtain rfl := Option.some.inj h
    simp [weight, hf, weightOf_cons, Repetition.stop]

/-- A further iteration of the innermost block is paid for with the iteration before it. -/
theorem weight_again? (base lines : Nat) {s : Loops} {f g : Repetition} {rest : List Repetition}
    (hf : s.blocks = f :: rest) (h : f.again? = some g) :
    { s with blocks := g :: rest }.weight base lines + Nat.pow base (lines - g.bodyStart) =
      s.weight base lines := by
  unfold Repetition.again? at h
  split at h
  · cases h
  · next hr =>
    obtain rfl := Option.some.inj h
    obtain ⟨n, hn⟩ : ∃ n, f.remaining = n + 1 := ⟨f.remaining - 1, by omega⟩
    simp only [weight, hf, weightOf_cons, Repetition.bodyStart, hn, Nat.add_sub_cancel,
      Nat.succ_mul]
    omega

/-- Going back because of `#loop` costs the weight of the line gone back to. -/
theorem weight_close_jump (base lines depth : Nat) {s t : Loops} {next : Nat}
    (h : s.close depth = (.ok (some next), t)) :
    t.weight base lines + Nat.pow base (lines - next) ≤ s.weight base lines := by
  unfold close at h
  split at h
  · cases h
  · next f rest hf =>
    split at h
    · cases h
    · split at h
      · next g hg =>
        cases h
        exact Nat.le_of_eq (weight_again? base lines hf hg)
      · cases h

/-- `#loop` never adds weight. -/
theorem weight_close_le (base lines depth : Nat) (s : Loops) :
    (s.close depth).2.weight base lines ≤ s.weight base lines := by
  unfold close
  split
  · exact Nat.le_refl _
  · next f rest hf =>
    have hdrop : weightOf base lines rest ≤ s.weight base lines := by
      simp [weight, hf, weightOf_cons]
    split
    · split
      · exact hdrop
      · exact Nat.le_refl _
    · split
      · next g hg => exact Nat.le.intro (weight_again? base lines hf hg)
      · exact hdrop

/-- Going back because of `#continue` costs the weight of the line gone back to. -/
theorem weight_advance_jump (base lines : Nat) {c d : Conditions} {s t : Loops}
    {next : Nat} (h : s.advance c = (.ok (some next), t, d)) :
    t.weight base lines + Nat.pow base (lines - next) ≤ s.weight base lines := by
  unfold advance at h
  split at h
  · cases h
  · next f rest hf =>
    split at h
    · cases h
    · split at h
      · next g hg =>
        cases h
        exact Nat.le_of_eq (weight_again? base lines hf hg)
      · cases h

/-- `#continue` never adds weight. -/
theorem weight_advance_le (base lines : Nat) (c : Conditions) (s : Loops) :
    (s.advance c).2.1.weight base lines ≤ s.weight base lines := by
  unfold advance
  split
  · exact Nat.le_refl _
  · next f rest hf =>
    split
    · exact Nat.le_refl _
    · split
      · next g hg => exact Nat.le.intro (weight_again? base lines hf hg)
      · simp [weight, hf, weightOf_cons, Repetition.stop]

/-! ### The count of a block without one never changes -/

theorem defaultCount_enter (line depth : Nat) (count : Option Nat) (s : Loops) :
    (s.enter line count depth).defaultCount = s.defaultCount := rfl

theorem defaultCount_close (depth : Nat) (s : Loops) :
    (s.close depth).2.defaultCount = s.defaultCount := by
  unfold close
  split
  · rfl
  · split
    · split <;> rfl
    · split <;> rfl

theorem defaultCount_leave? {s t : Loops} (h : s.leave? = some t) :
    t.defaultCount = s.defaultCount := by
  unfold leave? at h
  split at h
  · cases h
  · obtain rfl := Option.some.inj h
    rfl

theorem defaultCount_advance (c : Conditions) (s : Loops) :
    (s.advance c).2.1.defaultCount = s.defaultCount := by
  unfold advance
  split
  · rfl
  · split
    · rfl
    · split <;> rfl

end Loops

end Worksheet
