/-
Going on with the next iteration.

`#continue` either begins a further iteration of the innermost loop, or stops it, or is refused.
For a further iteration it closes the groups that were opened inside the body, one after the
other, and each time it may move the active level and mark a group as matched.  That the line it
goes back to is live nevertheless is not its own doing: it is met where all branches are taken,
and those that it leaves open are among them.

The groups and the blocks are looked at together here, as `#loop` and `#continue` do, after any
operations on them, in any order.

* `Opened` — the open groups and blocks, with what they can be asked to do;
* `Opened.sound_after` — the groups are sound after any operations;
* `Loops.advance_of_again` — a further iteration;
* `Opened.continue_all_or_nothing` — all that `#continue` can do.
-/
import Worksheet.Proofs.Frames
import Worksheet.Proofs.Trajectory

namespace Worksheet

/-- The open groups and blocks of a pass. -/
structure Opened where
  conditions : Conditions
  loops : Loops

namespace Opened

/-- Nothing is open. -/
def initial (defaultCount : Nat) : Opened :=
  ⟨.initial, .initial defaultCount⟩

/-- What the open groups and blocks can be asked to do. -/
inductive Operation where
  | onGroups (op : Conditions.Operation)
  | enter (line : Nat) (count : Option Nat)
  | close
  | leave
  | advance

/-- The groups and blocks after an operation; one that is refused may still close a block that was
stopped. -/
def Operation.apply (s : Opened) : Operation → Opened
  | .onGroups op => { s with conditions := op.apply s.conditions }
  | .enter line count => { s with loops := s.loops.enter line count s.conditions.depth }
  | .close => { s with loops := (s.loops.close s.conditions.depth).2 }
  | .leave => { s with loops := s.loops.leave?.getD s.loops }
  | .advance => ⟨(s.loops.advance s.conditions).2.2, (s.loops.advance s.conditions).2.1⟩

/-- The groups and blocks after some operations. -/
def after (defaultCount : Nat) (ops : List Operation) : Opened :=
  ops.foldl Operation.apply (initial defaultCount)

end Opened

/-! ### One `#continue` -/

namespace Conditions

variable {c : Conditions} {depth : Nat}

/-- Closing groups leaves the lower part of the stack as it is. -/
theorem frames_closeTo (h : depth ≤ c.depth) :
    (c.closeTo depth).frames.list = c.frames.list.take (depth + 1) := by
  have hbranches : (c.closeTo depth).branches = c.branches.drop (c.depth - depth) :=
    branches_popTimes (Nat.sub_le _ _)
  show (c.closeTo depth).branches.reverse = c.branches.reverse.take (depth + 1)
  rw [hbranches, List.reverse_drop, length_branches]
  congr 1
  omega

/-- Where all branches are taken, those that are left open are. -/
theorem Sound.isTaken_closeTo (h : c.Sound) (htaken : c.isTaken = true) (hdepth : depth ≤ c.depth) :
    (c.closeTo depth).isTaken = true := by
  rw [isTaken_eq h, List.all_eq_true] at htaken
  rw [isTaken_eq (h.closeTo depth), List.all_eq_true]
  intro b hb
  have hkept : b ∈ (c.closeTo depth).frames.list := List.mem_reverse.mpr hb
  rw [frames_closeTo hdepth] at hkept
  exact htaken b (List.mem_reverse.mp (List.mem_of_mem_take hkept))

end Conditions

namespace Loops

variable {c : Conditions} {s : Loops} {f g : Repetition} {rest : List Repetition}

theorem advance_of_outside (hblocks : s.blocks = f :: rest) (h : c.depth < f.groups) :
    s.advance c = (.error .entangled, s, c) := by
  rw [advance, hblocks]
  exact if_pos h

theorem advance_of_last (hblocks : s.blocks = f :: rest) (hdepth : f.groups ≤ c.depth)
    (hlast : f.again? = none) :
    s.advance c = (.ok none, { s with blocks := f.stop :: rest }, c) := by
  rw [advance, hblocks]
  dsimp only
  rw [if_neg (Nat.not_lt.mpr hdepth), hlast]

theorem advance_of_again (hblocks : s.blocks = f :: rest) (hdepth : f.groups ≤ c.depth)
    (hagain : f.again? = some g) :
    s.advance c = (.ok (some g.bodyStart), { s with blocks := g :: rest }, c.closeTo g.groups) := by
  rw [advance, hblocks]
  dsimp only
  rw [if_neg (Nat.not_lt.mpr hdepth), hagain]

end Loops

/-! ### After any operations -/

namespace Opened

/-- No operation makes the groups unsound. -/
theorem Operation.sound_apply {s : Opened} (h : s.conditions.Sound) (op : Operation) :
    (op.apply s).conditions.Sound := by
  cases op with
  | onGroups op => exact h.apply op
  | enter => exact h
  | close => exact h
  | leave => exact h
  | advance =>
    show (s.loops.advance s.conditions).2.2.Sound
    rw [Loops.advance]
    split
    · exact h
    split
    · exact h
    split
    · exact h.closeTo _
    · exact h

theorem sound_after (defaultCount : Nat) (ops : List Operation) :
    (after defaultCount ops).conditions.Sound :=
  List.foldlRecOn (motive := fun s => s.conditions.Sound) ops Operation.apply
    Conditions.sound_initial fun _ h op _ => op.sound_apply h

/-- **`#continue` does all or nothing, and it lands where lines are live.**  After any operations on
the groups and blocks, where all branches are taken and a block is open, it does one of three
things.  It goes back to the body of the block for a further iteration: the block has one
iteration less, but still runs, the branches of the groups around the block are left as they are
and no others, all of them are taken, and no condition is pending.  Or the block was in its last
iteration: it is stopped, and the groups are as they were.  Or, exactly if fewer groups are open
than around the block, `#continue` is refused as entangled, and nothing changes. -/
theorem continue_all_or_nothing (defaultCount : Nat) (ops : List Operation) {f : Repetition}
    {rest : List Repetition} (htaken : (after defaultCount ops).conditions.isTaken = true)
    (hblocks : (after defaultCount ops).loops.blocks = f :: rest) :
    let c := (after defaultCount ops).conditions
    let s := (after defaultCount ops).loops
    ((∃ g d, s.advance c = (.ok (some (f.start + 1)), { s with blocks := g :: rest }, d) ∧
        g = { f with remaining := f.remaining - 1, iteration := f.iteration + 1 } ∧
        g.remaining + 1 = f.remaining ∧ g.isStopped = false ∧
        f.groups ≤ c.depth ∧ d.frames.list = c.frames.list.take (f.groups + 1) ∧
        d.isTaken = true ∧ d.pending = false) ∨
      (f.remaining ≤ 1 ∧ f.groups ≤ c.depth ∧
        s.advance c = (.ok none, { s with blocks := { f with remaining := 0 } :: rest }, c)) ∨
      s.advance c = (.error .entangled, s, c)) ∧
    ((s.advance c).1 = .error .entangled ↔ c.depth < f.groups) := by
  have hsound := sound_after defaultCount ops
  generalize (after defaultCount ops).conditions = c at htaken hsound ⊢
  generalize (after defaultCount ops).loops = s at hblocks ⊢
  dsimp only
  by_cases hdepth : c.depth < f.groups
  · have hadvance := Loops.advance_of_outside hblocks hdepth
    refine ⟨.inr (.inr hadvance), ?_⟩
    rw [hadvance]
    exact iff_of_true rfl hdepth
  rw [Nat.not_lt] at hdepth
  rcases hagain : f.again? with _ | g
  · have hadvance := Loops.advance_of_last hblocks hdepth hagain
    refine ⟨.inr (.inl ⟨Loops.again?_eq_none_iff.mp hagain, hdepth, hadvance⟩), ?_⟩
    rw [hadvance]
    exact iff_of_false (by simp) (Nat.not_lt.mpr hdepth)
  · have hadvance := Loops.advance_of_again hblocks hdepth hagain
    obtain ⟨hstart, hgroups, hiteration, hremaining, hpositive⟩ := Loops.again?_eq_some hagain
    have hg : g = { f with remaining := f.remaining - 1, iteration := f.iteration + 1 } := by
      obtain ⟨start, remaining, iteration, groups⟩ := g
      dsimp only at hstart hgroups hiteration hremaining
      subst hstart hgroups hiteration
      rw [← hremaining, Nat.add_sub_cancel]
    rw [hgroups, show g.bodyStart = f.start + 1 from congrArg Nat.succ hstart] at hadvance
    refine ⟨.inl ⟨g, c.closeTo f.groups, hadvance, hg, hremaining, ?_, hdepth,
      Conditions.frames_closeTo hdepth, hsound.isTaken_closeTo htaken hdepth, rfl⟩, ?_⟩
    · exact beq_false_of_ne (Nat.ne_of_gt hpositive)
    · rw [hadvance]
      exact iff_of_false (by simp) (Nat.not_lt.mpr hdepth)

/-- A loop inside a group, and in its body the `#else` of a group whose test failed, with a further
group inside of it. -/
def insideElse : List Operation :=
  [.onGroups (.enter (some .opening)), .enter 3 (some 2), .onGroups (.enter (some .opening)),
    .onGroups .reject, .onGroups (.enter (some .otherwise)), .onGroups (.enter (some .opening))]

/-- From there, `#continue` closes the two groups of the body and goes back to it. -/
theorem continue_all_or_nothing_insideElse :
    (after 5 insideElse).conditions.isTaken = true ∧
    (after 5 insideElse).loops.blocks = [⟨3, 2, 1, 1⟩] ∧
    (after 5 insideElse).conditions.depth = 3 ∧ (after 5 insideElse).conditions.pending = true ∧
    ∃ d, (after 5 insideElse).loops.advance (after 5 insideElse).conditions =
        (.ok (some 4), ⟨[⟨3, 1, 2, 1⟩], 5⟩, d) ∧
      d.frames.list = [⟨true, .root⟩, ⟨true, .tested⟩] ∧ d.isTaken = true ∧ d.pending = false := by
  have htaken : (after 5 insideElse).conditions.isTaken = true := by decide
  have hblocks : (after 5 insideElse).loops.blocks = [⟨3, 2, 1, 1⟩] := by decide
  have hdepth : (after 5 insideElse).conditions.depth = 3 := by decide
  refine ⟨htaken, hblocks, hdepth, by decide, ?_⟩
  obtain ⟨⟨g, d, hadvance, rfl, -, -, -, hframes, hlive, hpending⟩ | ⟨hlast, -⟩ | hrefused, hiff⟩ :=
    continue_all_or_nothing 5 insideElse htaken hblocks
  · exact ⟨d, hadvance, hframes, hlive, hpending⟩
  · exact absurd hlast (by decide)
  · have houtside := hiff.mp (congrArg Prod.fst hrefused)
    rw [hdepth] at houtside
    exact absurd houtside (by decide)

end Opened

end Worksheet
