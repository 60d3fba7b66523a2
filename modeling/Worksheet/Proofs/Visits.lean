/-
What a visit to a line does in a calculated sheet.

For each form of a line there is one statement for every case that the open groups and
blocks make, in terms of the branches rather than of the active level.  A line is live
where all branches are taken and the innermost block runs.

* `Pass.step_branch_of_dead`, `step_content_of_dead` — lines that are passed over;
* `Pass.step_bare` — `#else` and `#end if` alone;
* `Pass.step_matched` — a further test of a group that has matched;
* `Pass.step_word_of_live`, `step_content_of_live` — lines whose segments are evaluated;
* `Pass.step_loop_of_taken`, `step_leave_of_live`, `step_next_of_live` — loop words.
-/
import Worksheet.Proofs.Balance
import Worksheet.Proofs.Content
import Worksheet.Proofs.Trajectory

namespace Worksheet.Pass

variable {σ ρ : Type}

theorem isStopped_eq (s : Loops) : s.isStopped = stopped s.blocks := by
  obtain ⟨blocks, count⟩ := s
  cases blocks with
  | nil => rfl
  | cons f rest => rfl

theorem isLive_eq {s : Pass σ ρ} (h : s.conditions.Sound) :
    s.isLive = live s.conditions.branches s.loops.blocks := by
  rw [isLive, live, Conditions.isTaken_eq h, isStopped_eq]

theorem live_eq {c : Conditions} {loops : Loops} (h : c.Sound) :
    (c.isTaken && !loops.isStopped) = live c.branches loops.blocks := by
  rw [live, Conditions.isTaken_eq h, isStopped_eq]

variable [MathEngine σ] [Plotter ρ σ] {s : Pass σ ρ} {d : Conditions} {text rest : List Char}
  {word : BranchWord} {i : Nat}

/-- A line with a branch word that can be entered. -/
theorem step_word (henter : s.conditions.enter (some word) = .ok d) :
    s.step true ⟨text, .branch word rest⟩ i =
      let r := s.page.content (s.visit true ⟨text, .branch word rest⟩ i) s.loops.isStopped
        (some word) rest d
      (r.1.map fun _ => .next, { s with conditions := r.2.1, page := r.2.2 }) := by
  show (let r := s.visitContent (s.visit true ⟨text, .branch word rest⟩ i) (some word) rest
    (r.1.map fun _ => Flow.next, r.2) : Except Fault Flow × Pass σ ρ) = _
  rw [visitContent, henter]

/-- A line without a branch word. -/
theorem step_content :
    s.step true ⟨text, .content⟩ i =
      let r := s.page.content (s.visit true ⟨text, .content⟩ i) s.loops.isStopped none text
        { s.conditions with label := none }
      (r.1.map fun _ => .next, { s with conditions := r.2.1, page := r.2.2 }) := rfl

/-- A line with a branch word that is not live is entered, and its input values are passed
over. -/
theorem step_branch_of_dead (henter : s.conditions.enter (some word) = .ok d)
    (hsound : d.Sound) (hdead : live d.branches s.loops.blocks = false) :
    s.step true ⟨text, .branch word rest⟩ i =
      (.ok .next, { s with
        conditions := d
        page := s.page.skipInputs (placeholderCount text) }) := by
  rw [step_word henter, Page.content_of_dead _ _ _ rfl (by rw [live_eq hsound, hdead])]
  rfl

theorem step_content_of_dead (hsound : s.conditions.Sound)
    (hdead : live s.conditions.branches s.loops.blocks = false) :
    s.step true ⟨text, .content⟩ i =
      (.ok .next, { s with
        conditions := { s.conditions with label := none }
        page := s.page.skipInputs (placeholderCount text) }) := by
  have hlabel : ({ s.conditions with label := none } : Conditions).Sound := hsound
  rw [step_content, Page.content_of_dead _ _ _ rfl (by rw [live_eq hlabel]; exact hdead)]
  rfl

theorem step_blank_of_dead (hsound : s.conditions.Sound)
    (hdead : live s.conditions.branches s.loops.blocks = false) :
    s.step true ⟨text, .blank⟩ i = (.ok .next, s) := by
  show ((Except.ok Flow.next : Except Fault Flow),
    { s with page := s.page.writeIf (s.page.visible && (!true || s.isLive)) _ }) = _
  rw [isLive_eq hsound, hdead, show (s.page.visible && (!true || false)) = false by simp]
  rfl

/-- `#else` and `#end if` alone do nothing but change or close the group. -/
theorem step_bare (henter : s.conditions.enter (some word) = .ok d) (hpending : d.pending = false)
    (hcount : placeholderCount text = 0) :
    s.step true ⟨text, .branch word []⟩ i = (.ok .next, { s with conditions := d }) := by
  rw [step_word henter, Page.content]
  split
  · show (_, _) = _
    rw [show (s.visit true ⟨text, .branch word []⟩ i).chars = text from rfl, hcount]
    rfl
  · show (let r := s.page.bareWord (s.visit true ⟨text, .branch word []⟩ i) word d
      (r.1.map fun _ => Flow.next, { s with conditions := r.2.1, page := r.2.2 })) = _
    rw [Page.bareWord]
    rw [hpending, show (s.page.visible && !(s.visit true ⟨text, .branch word []⟩ i).calculate) =
      false from Bool.and_false _]
    rfl

/-- A further test of a group that has matched is not evaluated, and its branch is not
taken.  Its input values stay where they are. -/
theorem step_matched (henter : s.conditions.enter (some word) = .ok d) (hsound : d.Sound)
    (hlive : live d.branches s.loops.blocks = true) (hmatched : d.matched = true)
    (hpending : d.pending = true) (hrest : rest ≠ []) :
    s.step true ⟨text, .branch word rest⟩ i = (.ok .next, { s with conditions := d.reject }) := by
  have hempty : rest.isEmpty = false := by simpa using hrest
  rw [step_word henter, Page.content, live_eq hsound, hlive, hempty, hmatched, hpending]
  rfl

/-- A line with an expression of its own that is live, and not a further test of a group
that has matched, shows its segments and settles the condition. -/
theorem step_word_of_live (henter : s.conditions.enter (some word) = .ok d) (hsound : d.Sound)
    (hlive : live d.branches s.loops.blocks = true)
    (hmatched : (d.matched && d.pending) = false) (hrest : rest ≠ []) :
    s.step true ⟨text, .branch word rest⟩ i =
      let r := s.page.showLine (s.visit true ⟨text, .branch word rest⟩ i) (some word) rest d
      (r.1.map fun _ => .next, { s with conditions := r.2.1, page := r.2.2 }) := by
  have hempty : rest.isEmpty = false := by simpa using hrest
  rw [step_word henter, Page.content, live_eq hsound, hlive, hempty]
  dsimp only
  rw [show (s.visit true ⟨text, .branch word rest⟩ i).calculate = true from rfl, Bool.true_and,
    Bool.true_and, hmatched]
  rfl

theorem step_content_of_live (hsound : s.conditions.Sound)
    (hlive : live s.conditions.branches s.loops.blocks = true) :
    s.step true ⟨text, .content⟩ i =
      let r := s.page.showLine (s.visit true ⟨text, .content⟩ i) none text
        { s.conditions with label := none }
      (r.1.map fun _ => .next, { s with conditions := r.2.1, page := r.2.2 }) := by
  have hlabel : ({ s.conditions with label := none } : Conditions).Sound := hsound
  have hshown : live ({ s.conditions with label := none } : Conditions).branches
      s.loops.blocks = true := hlive
  rw [step_content, Page.content, live_eq hlabel, hshown]
  rfl

/-! ### Loop words -/

variable {argument : List Char} {f g : Repetition} {blocks : List Repetition}

theorem step_repeat_of_untaken (hsound : s.conditions.Sound)
    (huntaken : s.conditions.branches.all Branch.taken = false) :
    s.step true ⟨text, .loop .opening argument⟩ i = (.ok .next, s) := by
  show (let r := s.enterLoop (s.visit true ⟨text, .loop .opening argument⟩ i) i argument
    (r.1.map fun _ => Flow.next, r.2) : Except Fault Flow × Pass σ ρ) = _
  rw [enterLoop, Conditions.isTaken_eq hsound, huntaken]
  rfl

/-- Inside a stopped loop, `#repeat` opens a block without iterations. -/
theorem step_repeat_of_stopped (hsound : s.conditions.Sound)
    (htaken : s.conditions.branches.all Branch.taken = true)
    (hstopped : stopped s.loops.blocks = true) :
    s.step true ⟨text, .loop .opening argument⟩ i =
      (.ok .next, { s with loops := s.loops.enter i (some 0) s.conditions.depth }) := by
  show (let r := s.enterLoop (s.visit true ⟨text, .loop .opening argument⟩ i) i argument
    (r.1.map fun _ => Flow.next, r.2) : Except Fault Flow × Pass σ ρ) = _
  rw [enterLoop, Conditions.isTaken_eq hsound, htaken, isStopped_eq, hstopped]
  rfl

theorem step_loop_of_untaken (hsound : s.conditions.Sound)
    (huntaken : s.conditions.branches.all Branch.taken = false) :
    s.step true ⟨text, .loop .closing argument⟩ i = (.ok .next, s) := by
  show s.closeLoop (s.visit true ⟨text, .loop .closing argument⟩ i) = _
  rw [closeLoop, Conditions.isTaken_eq hsound, huntaken]
  rfl

theorem step_loop_of_taken (hsound : s.conditions.Sound)
    (htaken : s.conditions.branches.all Branch.taken = true)
    (hblocks : s.loops.blocks = f :: blocks) (hgroups : f.groups = s.conditions.depth) :
    s.step true ⟨text, .loop .closing argument⟩ i =
      match f.again? with
      | some g =>
        (.ok (.jump g.bodyStart), { s with loops := { s.loops with blocks := g :: blocks } })
      | none => (.ok .next, { s with loops := { s.loops with blocks := blocks } }) := by
  show s.closeLoop (s.visit true ⟨text, .loop .closing argument⟩ i) = _
  rw [closeLoop, if_neg (by simp [visit]), Conditions.isTaken_eq hsound, if_pos htaken, Loops.close]
  rw [hblocks]
  dsimp only
  rw [if_neg (by simp [hgroups])]
  rcases f.again? with _ | g
  · rfl
  · rfl

theorem step_leave_of_dead (hsound : s.conditions.Sound)
    (hdead : live s.conditions.branches s.loops.blocks = false) :
    s.step true ⟨text, .loop .leave argument⟩ i = (.ok .next, s) := by
  show s.leaveLoop (s.visit true ⟨text, .loop .leave argument⟩ i) = _
  rw [leaveLoop, isLive_eq hsound, hdead]
  rfl

theorem step_leave_of_live (hsound : s.conditions.Sound)
    (hlive : live s.conditions.branches s.loops.blocks = true) :
    s.step true ⟨text, .loop .leave argument⟩ i =
      match s.loops.leave? with
      | some loops => (.ok .next, { s with loops })
      | none => (.ok .stop, s) := by
  show s.leaveLoop (s.visit true ⟨text, .loop .leave argument⟩ i) = _
  rw [leaveLoop, if_neg (by simp [visit]), isLive_eq hsound, hlive]
  rcases s.loops.leave? with _ | loops
  · rfl
  · rfl

theorem step_next_of_dead (hsound : s.conditions.Sound)
    (hdead : live s.conditions.branches s.loops.blocks = false) :
    s.step true ⟨text, .loop .next argument⟩ i = (.ok .next, s) := by
  show s.continueLoop (s.visit true ⟨text, .loop .next argument⟩ i) = _
  rw [continueLoop, isLive_eq hsound, hdead]
  rfl

theorem step_next_of_live (hsound : s.conditions.Sound)
    (hlive : live s.conditions.branches s.loops.blocks = true) :
    s.step true ⟨text, .loop .next argument⟩ i =
      let r := s.loops.advance s.conditions
      ((r.1.map flowTo).mapError .structural,
        { s with loops := r.2.1, conditions := r.2.2 }) := by
  show s.continueLoop (s.visit true ⟨text, .loop .next argument⟩ i) = _
  rw [continueLoop, if_neg (by simp [visit]), isLive_eq hsound, if_pos hlive]

end Worksheet.Pass
