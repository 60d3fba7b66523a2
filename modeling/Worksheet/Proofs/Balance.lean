/-
How the open branches and blocks of a pass fit the lines around its position.

`#repeat` and `#loop` act only where every branch is taken, so whether a `#loop` finds
the block of its `#repeat` depends on what happened to the groups in between.  The
invariant `Fits` says that the open branches and blocks are those of the lines around a
position: every group has its branch, and every loop has its block exactly if the
branches around it are taken.

* `Fits` — the invariant, over the blocks around a position;
* `Fits.pending_eq_false` — where lines are shown, no condition waits for its value;
* `Fits.innermost` — the loop around a position that has the innermost block.
-/
import Worksheet.Loop
import Worksheet.Proofs.Branches
import Worksheet.Proofs.Nesting

namespace Worksheet

/-! ### Open blocks that fit the lines -/

/-- Whether the innermost of some blocks is stopped. -/
def stopped : List Repetition → Bool
  | [] => false
  | f :: _ => f.isStopped

/-- Whether a line is shown in a calculated sheet, given the open branches and blocks. -/
def live (branches : List Branch) (blocks : List Repetition) : Bool :=
  branches.all Branch.taken && !stopped blocks

/-! What decides whether a line is live. -/

theorem live_eq_true_iff {branches : List Branch} {blocks : List Repetition} :
    live branches blocks = true ↔
      branches.all Branch.taken = true ∧ stopped blocks = false := by
  rw [live, Bool.and_eq_true, Bool.not_eq_true']

theorem live_of_untaken {branches : List Branch} {blocks : List Repetition}
    (h : branches.all Branch.taken = false) : live branches blocks = false := by
  rw [live, h, Bool.false_and]

theorem live_of_stopped {branches : List Branch} {blocks : List Repetition}
    (h : stopped blocks = true) : live branches blocks = false := by
  rw [live, h, Bool.not_true, Bool.and_false]

theorem live_cons (b : Branch) (branches : List Branch) (blocks : List Repetition) :
    live (b :: branches) blocks = (b.taken && live branches blocks) := by
  rw [live, live, List.all_cons, Bool.and_assoc]

/-- A block without iterations is stopped. -/
theorem stopped_of_remaining {f : Repetition} (h : f.remaining = 0) (rest : List Repetition) :
    stopped (f :: rest) = true := by
  show f.isStopped = true
  rw [Repetition.isStopped, h]
  rfl

/-- The part of a group that a line in it belongs to, given whether `#else` was met. -/
def partOf (last : Bool) : BranchKind :=
  if last then .otherwise else .tested

/-- The open branches and blocks fit the blocks around a position.  Each group has a
branch; a loop has a block if all branches around it are taken, and none otherwise.  While
a condition is pending, the innermost group is not live. -/
inductive Fits (calculate : Bool) :
    Bool → List Opener → List Branch → List Repetition → Prop
  | root : Fits calculate false [] [⟨true, .root⟩] []
  | group {pending : Bool} {around : List Opener} {branches : List Branch}
      {blocks : List Repetition} (last taken : Bool)
      (outer : Fits calculate false around branches blocks)
      (waits : pending = true → live branches blocks = false) :
      Fits calculate pending (.group last :: around) (⟨taken, partOf last⟩ :: branches) blocks
  | running {pending : Bool} {around : List Opener} {branches : List Branch}
      {f : Repetition} {blocks : List Repetition} (calculates : calculate = true)
      (outer : Fits calculate pending around branches blocks)
      (taken : branches.all Branch.taken = true)
      (stops : stopped blocks = true → f.isStopped = true)
      (groups : f.groups + 1 = branches.length) :
      Fits calculate pending (.loop f.start :: around) branches (f :: blocks)
  | passed {pending : Bool} {around : List Opener} {branches : List Branch}
      {blocks : List Repetition} (line : Nat)
      (outer : Fits calculate pending around branches blocks)
      (untaken : calculate = true → branches.all Branch.taken = false) :
      Fits calculate pending (.loop line :: around) branches blocks

namespace Fits

variable {calculate pending : Bool} {around : List Opener} {branches : List Branch}
  {blocks : List Repetition}

/-- A condition that is settled no longer waits. -/
theorem settle (h : Fits calculate pending around branches blocks) :
    Fits calculate false around branches blocks := by
  induction h with
  | root => exact .root
  | group last taken outer _ _ => exact .group last taken outer (by simp)
  | running calculates _ taken stops groups ih => exact .running calculates ih taken stops groups
  | passed line _ untaken ih => exact .passed line ih untaken

/-- Where lines are shown, no condition is pending. -/
theorem pending_eq_false (h : Fits calculate pending around branches blocks)
    (hlive : live branches blocks = true) : pending = false := by
  induction h with
  | root => rfl
  | @group pending around branches blocks last taken outer waits _ =>
    rcases hp : pending with _ | _
    · rfl
    · -- a condition waits only where the group itself is not live
      rw [live_cons, waits hp, Bool.and_false] at hlive
      cases hlive
  | @running pending around branches f blocks _ _ taken stops _ ih =>
    apply ih
    -- a block that runs does not lie in one that is stopped
    have hrun : f.isStopped = false := (live_eq_true_iff.mp hlive).2
    refine live_eq_true_iff.mpr ⟨taken, ?_⟩
    rcases hs : stopped blocks with _ | _
    · rfl
    · rw [stops hs] at hrun
      cases hrun
  | passed _ _ _ ih => exact ih hlive

theorem ne_nil (h : Fits calculate pending around branches blocks) : branches ≠ [] := by
  induction h with
  | root => exact List.cons_ne_nil _ _
  | group => exact List.cons_ne_nil _ _
  | running _ _ _ _ _ ih => exact ih
  | passed _ _ _ ih => exact ih

/-- Inside a group, the innermost branch belongs to it, and there are others around. -/
theorem of_group {b : Branch} {last : Bool}
    (h : Fits calculate pending (.group last :: around) (b :: branches) blocks) :
    b.kind = partOf last ∧ Fits calculate false around branches blocks := by
  cases h with
  | group _ _ outer _ => exact ⟨rfl, outer⟩

/-- The branch of the innermost group may change. -/
theorem change {b : Branch} {last : Bool} (h : Fits calculate pending (.group last :: around)
    (b :: branches) blocks) (last' taken waiting : Bool)
    (waits : waiting = true → live branches blocks = false) :
    Fits calculate waiting (.group last' :: around) (⟨taken, partOf last'⟩ :: branches) blocks := by
  cases h with
  | group _ _ outer _ => exact .group last' taken outer waits

/-- The innermost block may stop. -/
theorem stop {f : Repetition} (h : Fits calculate pending around branches (f :: blocks)) :
    Fits calculate pending around branches (f.stop :: blocks) := by
  generalize hb : f :: blocks = all at h
  induction h with
  | root => cases hb
  | @group pending around branches all last taken outer _ ih =>
    subst hb
    refine .group last taken (ih rfl) ?_
    intro _
    exact live_of_stopped (stopped_of_remaining rfl _)
  | running calculates outer taken _ groups =>
    cases hb
    exact .running (f := f.stop) calculates outer taken (fun _ => rfl) groups
  | passed line _ untaken ih => exact .passed line (ih hb) untaken

/-- Where all branches are taken, the innermost loop around a position has the innermost
block, and the groups inside that loop are all that was opened since. -/
theorem innermost {f : Repetition} (h : Fits true pending around branches (f :: blocks))
    (htaken : branches.all Branch.taken = true) :
    ∃ outer home, .loop f.start :: outer <:+ around ∧ home <:+ branches ∧
      Fits true false outer home blocks ∧ home.all Branch.taken = true ∧
      (stopped blocks = true → f.isStopped = true) ∧ f.groups + 1 = home.length := by
  generalize hc : true = calculate at h
  generalize hb : f :: blocks = all at h
  induction h with
  | root => cases hb
  | group last taken _ _ ih =>
    rw [List.all_cons, Bool.and_eq_true] at htaken
    obtain ⟨outer, home, hloop, hhome, hrest⟩ := ih htaken.2 hb
    exact ⟨outer, home, hloop.trans (List.suffix_cons _ _),
      hhome.trans (List.suffix_cons _ _), hrest⟩
  | running _ outer taken stops groups =>
    cases hb
    subst hc
    exact ⟨_, _, List.suffix_rfl, List.suffix_rfl, outer.settle, taken, stops, groups⟩
  | passed line _ untaken _ =>
    rw [untaken hc.symm] at htaken
    cases htaken

/-- Where all branches are taken and no block is open, no loop is around. -/
theorem no_loop (h : Fits true pending around branches [])
    (htaken : branches.all Branch.taken = true) (line : Nat) : .loop line ∉ around := by
  generalize hc : true = calculate at h
  generalize hb : ([] : List Repetition) = all at h
  induction h with
  | root => exact List.not_mem_nil
  | group last taken _ _ ih =>
    rw [List.all_cons, Bool.and_eq_true] at htaken
    intro hmem
    rcases List.mem_cons.mp hmem with heq | hmem
    · cases heq
    · exact ih htaken.2 hb hmem
  | running => cases hb
  | passed _ _ untaken _ =>
    rw [untaken hc.symm] at htaken
    cases htaken

end Fits

end Worksheet
