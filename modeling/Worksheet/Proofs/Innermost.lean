/-
The innermost loop speaks for all of them.

Whether a line is live depends on every open loop, but only the innermost block is looked at.
A stack of blocks as such does not justify that: a block with iterations could well be opened
inside of a stopped one.  It is what the lines of a pass ask for that rules this out.  Inside a
stopped loop, `#repeat` opens blocks without iterations only; `#break` and `#continue` stop no
block but the innermost; and a block that goes on to a further iteration was not stopped.  So
what is inside of a stopped block is stopped as well, also where groups and blocks overlap.

* `Loops.StoppedInside` — what is inside of a stopped block is stopped;
* `Pass.stoppedInside_step` — every step keeps that, with `Pass.Reaches.stoppedInside`;
* `Workbench.GoesThrough` — the states of a pass between its lines, and within one;
* `Workbench.innermost_block_decides` — what the innermost block says in each of them.
-/
import Worksheet.Proofs.DeadLines

namespace Worksheet

/-! ### Stopped blocks -/

namespace Loops

/-- What is inside of a stopped block is stopped. -/
def StoppedInside (blocks : List Repetition) : Prop :=
  blocks.Pairwise fun inner outer => outer.remaining = 0 → inner.remaining = 0

variable {f g : Repetition} {rest blocks : List Repetition}

theorem stoppedInside_nil : StoppedInside [] :=
  .nil

theorem StoppedInside.tail (h : StoppedInside (f :: rest)) : StoppedInside rest :=
  (List.pairwise_cons.mp h).2

/-- Around a block that still runs, all blocks do. -/
theorem StoppedInside.running (h : StoppedInside (f :: rest)) (hf : f.remaining ≠ 0) :
    ∀ g ∈ rest, g.remaining ≠ 0 := by
  intro g hg hstopped
  exact hf ((List.pairwise_cons.mp h).1 g hg hstopped)

/-- A block can be stopped, or put inside the others if it is. -/
theorem StoppedInside.cons_stopped (h : StoppedInside rest) (hf : f.remaining = 0) :
    StoppedInside (f :: rest) :=
  List.pairwise_cons.mpr ⟨fun _ _ _ => hf, h⟩

/-- A block that may run can take the place of one that still ran. -/
theorem StoppedInside.replace (h : StoppedInside (f :: rest)) (hf : f.remaining ≠ 0) :
    StoppedInside (g :: rest) :=
  List.pairwise_cons.mpr ⟨fun k hk hstopped => absurd hstopped (h.running hf k hk), h.tail⟩

theorem isStopped_cons (count : Nat) : (⟨f :: rest, count⟩ : Loops).isStopped = true ↔
    f.remaining = 0 :=
  beq_iff_eq

/-- Some block is stopped exactly if the innermost one is. -/
theorem StoppedInside.isStopped_iff {s : Loops} (h : StoppedInside s.blocks) :
    s.isStopped = true ↔ ∃ f ∈ s.blocks, f.remaining = 0 := by
  obtain ⟨blocks, count⟩ := s
  rcases blocks with _ | ⟨f, rest⟩
  · simp [isStopped]
  · rw [isStopped_cons]
    constructor
    · intro hf
      exact ⟨f, List.mem_cons_self .., hf⟩
    · rintro ⟨g, hg, hstopped⟩
      by_contra hf
      rcases List.mem_cons.mp hg with rfl | hg
      · exact hf hstopped
      · exact StoppedInside.running h hf g hg hstopped

/-- A block that is opened inside the others must be stopped if the innermost of them is. -/
theorem StoppedInside.enter {s : Loops} (h : StoppedInside s.blocks)
    (hf : s.isStopped = true → f.remaining = 0) : StoppedInside (f :: s.blocks) := by
  by_cases hstopped : s.isStopped = true
  · exact h.cons_stopped (hf hstopped)
  · refine List.pairwise_cons.mpr ⟨?_, h⟩
    intro g hg hg'
    exact absurd (h.isStopped_iff.mpr ⟨g, hg, hg'⟩) hstopped

/-- The blocks are some that are stopped, inside of some that run. -/
theorem StoppedInside.exists_append (h : StoppedInside blocks) :
    ∃ stopped running, blocks = stopped ++ running ∧ (∀ f ∈ stopped, f.remaining = 0) ∧
      ∀ f ∈ running, f.remaining ≠ 0 := by
  induction blocks with
  | nil => exact ⟨[], [], rfl, by simp, by simp⟩
  | cons f rest ih =>
    by_cases hf : f.remaining = 0
    · obtain ⟨stopped, running, rfl, hstopped, hrunning⟩ := ih h.tail
      exact ⟨f :: stopped, running, rfl, List.forall_mem_cons.mpr ⟨hf, hstopped⟩, hrunning⟩
    · exact ⟨[], f :: rest, rfl, by simp, List.forall_mem_cons.mpr ⟨hf, h.running hf⟩⟩

end Loops

namespace Pass

variable {σ ρ : Type} [MathEngine σ]

/-- Inside a stopped loop, `#repeat` opens a block without iterations. -/
theorem stoppedInside_enterLoop (v : Visit) (index : Nat) (argument : List Char)
    {s : Pass σ ρ} (h : Loops.StoppedInside s.loops.blocks) :
    Loops.StoppedInside (s.enterLoop v index argument).2.loops.blocks := by
  rw [enterLoop]
  dsimp only
  split
  · exact h
  split
  · exact h
  split
  · exact h.cons_stopped rfl
  -- the innermost block runs, so the new one may have any number of iterations
  next hrunning =>
  split
  · exact h.enter fun hstopped => absurd hstopped hrunning
  split
  · exact h.enter fun hstopped => absurd hstopped hrunning
  split
  · exact h
  · exact h.cons_stopped rfl

variable [Plotter ρ σ]

/-- Every step keeps stopped what is inside of a stopped block. -/
theorem stoppedInside_step (calculate : Bool) (line : Line) (index : Nat) {s : Pass σ ρ}
    (h : Loops.StoppedInside s.loops.blocks) :
    Loops.StoppedInside (s.step calculate line index).2.loops.blocks := by
  have hchange := blocks_step calculate line index s
  generalize hafter : (s.step calculate line index).2.loops.blocks = after at hchange
  cases hchange with
  | stay => exact h
  | enter count hform =>
    -- how many iterations the block has is up to `#repeat`
    obtain ⟨text, form⟩ := line
    subst hform
    rw [← hafter]
    exact stoppedInside_enterLoop _ index _ h
  | close _ _ _ hblocks =>
    rw [hblocks] at h
    exact h.tail
  | stop hblocks =>
    rw [hblocks] at h
    exact h.tail.cons_stopped rfl
  | again hblocks hagain =>
    rw [hblocks] at h
    obtain ⟨-, -, -, hremaining, -⟩ := Loops.again?_eq_some hagain
    exact h.replace (by omega)

/-- At every place of a pass, what is inside of a stopped block is stopped, if it was at
first. -/
theorem Reaches.stoppedInside {calculate : Bool} {lines : Array Line} {i j : Nat}
    {s t : Pass σ ρ} (hr : Reaches calculate lines i s j t)
    (h : Loops.StoppedInside s.loops.blocks) : Loops.StoppedInside t.loops.blocks := by
  refine hr.keeps (I := fun _ loops => Loops.StoppedInside loops.blocks) ?_ h
  intro k line u _ hu
  exact stoppedInside_step calculate line k hu

omit [MathEngine σ] [Plotter ρ σ] in
/-- Entering the branch word of a line keeps the groups sound. -/
theorem sound_groupsAt (form : LineForm) {s : Pass σ ρ} (h : s.conditions.Sound) :
    (s.groupsAt form).Sound := by
  cases form with
  | branch word rest =>
    rw [groupsAt]
    rcases henter : s.conditions.enter (some word) with e | c
    · exact h
    · exact h.enter henter
  | _ => exact h

end Pass

/-! ### The states of a pass -/

namespace Workbench

variable {σ ρ : Type} [MathEngine σ] [Plotter ρ σ] {source : String} {calculate : Bool}
  {inputs : List String} {w : Workbench σ ρ}

/-- The states that a pass goes through: those at its places, those within the visit to a line,
once its branch word was entered, and those that a visit leaves behind, also the last one. -/
inductive GoesThrough (source : String) (calculate : Bool) (inputs : List String)
    (w : Workbench σ ρ) : Pass σ ρ → Prop
  | place {i : Nat} {s : Pass σ ρ} (hs : w.ComesTo source calculate inputs i s) :
    GoesThrough source calculate inputs w s
  | entered {i : Nat} {s : Pass σ ρ} {line : Line}
    (hs : w.ComesTo source calculate inputs i s) (hl : (Sheet.lines source)[i]? = some line) :
    GoesThrough source calculate inputs w { s with conditions := s.groupsAt line.form }
  | visited {i : Nat} {s : Pass σ ρ} {line : Line}
    (hs : w.ComesTo source calculate inputs i s) (hl : (Sheet.lines source)[i]? = some line) :
    GoesThrough source calculate inputs w (s.step calculate line i).2

/-- In every state of a pass, what is inside of a stopped block is stopped, and the groups are
sound. -/
theorem GoesThrough.invariant {t : Pass σ ρ} (h : w.GoesThrough source calculate inputs t) :
    Loops.StoppedInside t.loops.blocks ∧ t.conditions.Sound := by
  have hplace : ∀ {i : Nat} {s : Pass σ ρ}, w.ComesTo source calculate inputs i s →
      Loops.StoppedInside s.loops.blocks ∧ s.conditions.Sound := by
    intro i s hs
    exact ⟨hs.stoppedInside Loops.stoppedInside_nil, hs.sound Conditions.sound_initial⟩
  cases h with
  | place hs => exact hplace hs
  | entered hs _ =>
    obtain ⟨hstopped, hsound⟩ := hplace hs
    exact ⟨hstopped, Pass.sound_groupsAt _ hsound⟩
  | visited hs _ =>
    obtain ⟨hstopped, hsound⟩ := hplace hs
    exact ⟨Pass.stoppedInside_step _ _ _ hstopped, Pass.sound_step _ _ _ hsound⟩

/-- **The innermost block decides for all.**  In every state that a pass goes through, over any
sheet and with any engine, the stopped blocks are the innermost ones, so some open block is
stopped exactly if the innermost one is; and a line is live exactly if all open branches are
taken and no open block is stopped. -/
theorem innermost_block_decides {t : Pass σ ρ} (h : w.GoesThrough source calculate inputs t) :
    (∃ stopped running, t.loops.blocks = stopped ++ running ∧
      (∀ f ∈ stopped, f.remaining = 0) ∧ ∀ f ∈ running, f.remaining ≠ 0) ∧
    (t.loops.isStopped = true ↔ ∃ f ∈ t.loops.blocks, f.remaining = 0) ∧
    (t.isLive = true ↔ (∀ b ∈ t.conditions.branches, b.taken = true) ∧
      ∀ f ∈ t.loops.blocks, f.remaining ≠ 0) := by
  obtain ⟨hinside, hsound⟩ := h.invariant
  refine ⟨hinside.exists_append, hinside.isStopped_iff, ?_⟩
  rw [Pass.isLive, Bool.and_eq_true, Bool.not_eq_true', ← Bool.not_eq_true,
    hinside.isStopped_iff, Conditions.isTaken_eq hsound, List.all_eq_true]
  push Not
  rfl

/-- A loop that is left inside of another one, with a group that it overlaps. -/
def leftInOverlap : String :=
  "#repeat 2\n#if 1\n#repeat 3\n#break\n#repeat 5\n#end if\n'a'"

/-- Behind the end of the group, two of the three open loops are stopped: the one that was left,
and the one inside of it. -/
theorem innermost_block_decides_leftInOverlap :
    ∃ s, fresh.ComesTo leftInOverlap true [] 6 s ∧
      s.loops.blocks.map Repetition.remaining = [0, 0, 2] ∧ s.conditions.depth = 0 ∧
      (∃ f ∈ s.loops.blocks, f.remaining = 0) ∧ s.isLive = false := by
  have hplace : ∃ p ∈ (Pass.after true (Sheet.lines leftInOverlap) 6 0
      (fresh.startPass true [])).place?, p.1 = 6 ∧
      p.2.loops.blocks.map Repetition.remaining = [0, 0, 2] ∧ p.2.conditions.depth = 0 ∧
      p.2.loops.isStopped = true := by
    decide +kernel
  obtain ⟨⟨i, s⟩, hp, rfl, hremaining, hdepth, hstopped⟩ := hplace
  have hs : fresh.ComesTo leftInOverlap true [] 6 s := Pass.reaches_of_after hp
  obtain ⟨-, hiff, hlive⟩ := innermost_block_decides (.place hs)
  obtain ⟨f, hf, hf'⟩ := hiff.mp hstopped
  refine ⟨s, hs, hremaining, hdepth, ⟨f, hf, hf'⟩, ?_⟩
  rw [← Bool.not_eq_true, hlive]
  exact fun h => h.2 f hf hf'

end Workbench

end Worksheet
