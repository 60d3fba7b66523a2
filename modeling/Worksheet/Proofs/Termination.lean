/-
Every pass ends.

A `#loop` or a `#continue` goes back in the sheet, and it may come to the same `#repeat`
again, so neither the position nor the number of iterations that are left bounds a pass.
What bounds it is the order of the open blocks: each starts above the blocks inside it
and above the present line, and going back costs an iteration of the block that is gone
back in.

* `Loops.Ordered` — the order of the open blocks, kept by every step;
* `Workbench.pass_ends` — every pass over every sheet ends after a bounded number of
  steps, the open blocks being in order at all its places.
-/
import Worksheet.Proofs.Trajectory
import Mathlib.Algebra.GroupWithZero.Nat

namespace Worksheet

namespace Loops

/-- Blocks are in order at a position: each starts below the blocks around it, and all
start above the position. -/
structure Ordered (cursor : Nat) (blocks : List Repetition) : Prop where
  descending : blocks.Pairwise fun inner outer => outer.start < inner.start
  behind : ∀ f ∈ blocks, f.start < cursor

theorem ordered_nil (cursor : Nat) : Ordered cursor [] :=
  ⟨.nil, by simp⟩

theorem Ordered.mono {cursor further : Nat} {blocks : List Repetition}
    (h : Ordered cursor blocks) (hle : cursor ≤ further) : Ordered further blocks :=
  ⟨h.descending, fun f hf => Nat.lt_of_lt_of_le (h.behind f hf) hle⟩

theorem Ordered.tail {cursor : Nat} {f : Repetition} {rest : List Repetition}
    (h : Ordered cursor (f :: rest)) : Ordered cursor rest :=
  ⟨(List.pairwise_cons.mp h.descending).2, fun g hg => h.behind g (.tail _ hg)⟩

/-- Only the start of a block matters for its order. -/
theorem Ordered.replace {cursor : Nat} {f g : Repetition} {rest : List Repetition}
    (h : Ordered cursor (f :: rest)) (hstart : g.start = f.start) :
    Ordered cursor (g :: rest) := by
  obtain ⟨hhead, htail⟩ := List.pairwise_cons.mp h.descending
  refine ⟨List.pairwise_cons.mpr ⟨?_, htail⟩, ?_⟩
  · rw [hstart]
    exact hhead
  · intro k hk
    rcases List.mem_cons.mp hk with rfl | hk
    · rw [hstart]
      exact h.behind f (.head _)
    · exact h.behind k (.tail _ hk)

/-- A step at a line keeps the blocks in order at the position it leads to. -/
theorem Ordered.move {index : Nat} {before after : List Repetition} {back : Option Nat}
    (h : Ordered index before) (hm : Move index before back after) :
    Ordered (back.getD (index + 1)) after := by
  cases hm with
  | stay => exact h.mono (Nat.le_succ _)
  | enter count depth =>
    refine ⟨List.pairwise_cons.mpr ⟨fun g hg => h.behind g hg, h.descending⟩, ?_⟩
    intro g hg
    rcases List.mem_cons.mp hg with rfl | hg
    · exact Nat.lt_succ_self index
    · exact Nat.lt_succ_of_lt (h.behind g hg)
  | close => exact h.tail.mono (Nat.le_succ _)
  | stop f rest => exact (h.replace (g := f.stop) rfl).mono (Nat.le_succ _)
  | @again f g rest hg =>
    obtain ⟨hstart, -⟩ := again?_eq_some hg
    have hord := h.replace hstart
    refine ⟨hord.descending, ?_⟩
    -- the position gone back to lies right below the start of the innermost block
    intro k hk
    show k.start < g.start + 1
    rcases List.mem_cons.mp hk with rfl | hk
    · exact Nat.lt_succ_self _
    · exact Nat.lt_succ_of_lt ((List.pairwise_cons.mp hord.descending).1 k hk)

end Loops

namespace Pass

variable {σ ρ : Type} [MathEngine σ] [Plotter ρ σ] {calculate : Bool} {lines : Array Line}

/-- At every place of a pass, the open blocks are in order if they were at first. -/
theorem Reaches.ordered {i j : Nat} {s t : Pass σ ρ} (h : Reaches calculate lines i s j t)
    (hs : Loops.Ordered i s.loops.blocks) : Loops.Ordered j t.loops.blocks := by
  induction h with
  | here => exact hs
  | @onward j k t u _ ht ih =>
    obtain ⟨line, -, -, hf⟩ := tick_go ht
    obtain ⟨rfl, hloops, -⟩ := follow_go hf
    rw [hloops]
    exact ih.move (move_step calculate line j t)

/-- Going back costs the innermost block an iteration and leads to the line below its
start. -/
theorem remaining_lt_of_jump {line : Line} {i next : Nat} {s t : Pass σ ρ}
    (h : s.step calculate line i = (.ok (.jump next), t)) :
    ∃ f g rest, s.loops.blocks = f :: rest ∧ t.loops.blocks = g :: rest ∧
      g.start = f.start ∧ next = f.start + 1 ∧ g.remaining < f.remaining := by
  have hm := move_step calculate line i s
  rw [h] at hm
  generalize hb : s.loops.blocks = before at hm
  generalize ha : t.loops.blocks = after at hm
  change Loops.Move i before (some next) after at hm
  cases hm with
  | @again f g rest hg =>
    obtain ⟨hstart, -, -, hrem, -⟩ := Loops.again?_eq_some hg
    refine ⟨f, g, rest, rfl, rfl, hstart, ?_, by omega⟩
    show g.start + 1 = f.start + 1
    rw [hstart]

end Pass

namespace Workbench

variable {σ ρ : Type} [MathEngine σ] [Plotter ρ σ]

/-- The most steps of a pass over some lines, given the iterations of a block without a
count. -/
def stepBound (iterations lines : Nat) : Nat :=
  (max iterations maxIterationCount + 2) ^ lines

omit [Plotter ρ σ] in
theorem potential_startPass (lines : Nat) (calculate : Bool) (inputs : List String)
    (w : Workbench σ ρ) :
    (w.startPass calculate inputs).potential lines 0 =
      stepBound w.settings.maxIterations lines := by
  show Nat.pow _ (lines - 0) + 0 = _
  rw [Nat.sub_zero, Nat.add_zero]
  rfl

/-- **Every pass ends.**  For every engine and plotter, a pass over any sheet ends, with
the result of `Pass.run`, after a number of steps that depends only on the number of lines
and the bounds of the iterations.  At all places it comes to, the open blocks start in
increasing order from the outside in, all of them above the position; and a step that goes
back takes an iteration from the innermost block. -/
theorem pass_ends (source : String) (calculate : Bool) (inputs : List String)
    (w : Workbench σ ρ) :
    (∃ n ≤ stepBound w.settings.maxIterations (Sheet.lines source).size, ∃ ending t,
      Pass.after calculate (Sheet.lines source) n 0 (w.startPass calculate inputs) =
          .done ending t ∧
        (w.startPass calculate inputs).run calculate (Sheet.lines source) 0 = (ending, t)) ∧
    ∀ i s, w.ComesTo source calculate inputs i s →
      Loops.Ordered i s.loops.blocks ∧
      ∀ line next t, (Sheet.lines source)[i]? = some line →
        s.step calculate line i = (.ok (.jump next), t) →
        ∃ f g rest, s.loops.blocks = f :: rest ∧ t.loops.blocks = g :: rest ∧
          g.start = f.start ∧ next = f.start + 1 ∧ g.remaining < f.remaining := by
  constructor
  · rw [← potential_startPass _ calculate inputs w]
    exact Pass.exists_after_eq_done 0 _
  · intro i s hs
    refine ⟨hs.ordered (Loops.ordered_nil 0), ?_⟩
    intro line next t _ hstep
    exact Pass.remaining_lt_of_jump hstep

end Workbench

end Worksheet
