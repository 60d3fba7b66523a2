/-
A pass over a well-nested sheet means what its script means.

Every part of a script lands where its run says (`Pass.Lands`), by induction on the script:
a test decides between a body and the further branches, and a loop is left or goes back as
often as its count says.

* `Pass.cycle_lands` — all iterations of a loop;
* `Script.lands_test` — a condition with the body and the branches that depend on it;
* `Script.lands`, `Alternatives.lands` — every part of a script;
* `Workbench.compile_eq_compileScript` — compiling a source is compiling its script.
-/
import Worksheet.Proofs.Landing
import Worksheet.Proofs.LiveLines
import Worksheet.Proofs.ScriptOf

namespace Worksheet

variable {σ ρ : Type} [MathEngine σ] [Steady σ]

/-! ### Conditions and counts leave the cancellation flag as it is -/

namespace Page

theorem cancel_test (text : List Char) (e : Expression) (i : Nat) (p : Page σ ρ) :
    (p.test text e i).2.cancel = p.cancel := by
  have hevaluate := p.cancel_evaluate (String.ofList e.chars)
  rw [test]
  generalize p.evaluate (String.ofList e.chars) = r at hevaluate ⊢
  rcases r with ⟨(message | payload) | value, q⟩
  · exact hevaluate
  · exact hevaluate
  · dsimp only
    rcases truth value with cause | holds
    · exact hevaluate
    · exact hevaluate

theorem cancel_repetitions (unbounded : Nat) (text count : List Char) (i : Nat) (p : Page σ ρ) :
    (p.repetitions unbounded text count i).2.cancel = p.cancel := by
  have hevaluate := p.cancel_evaluate (String.ofList count)
  rw [repetitions]
  split
  · rfl
  generalize p.evaluate (String.ofList count) = r at hevaluate ⊢
  rcases r with ⟨(message | payload) | value, q⟩
  · exact hevaluate
  · exact hevaluate
  · dsimp only
    rcases countOfValue value.re with cause | times
    · exact hevaluate
    · exact hevaluate

end Page

namespace Pass

variable [Plotter ρ σ] {lines : Array Line} {i j k : Nat} {c o : Conditions} {loops : Loops}
  {page : Page σ ρ} {text : List Char} {word : BranchWord} {e : Expression}

/-! ### Iterations -/

/-- A loop is over: the pass arrives behind it, or ends. -/
def Finishes (lines : Array Line) (i : Nat) (s : Pass σ ρ) (j : Nat) (home : List Branch)
    (loops : Loops) (r : Exit × Page σ ρ) : Prop :=
  match r with
  | (.through, p) => Arrives lines i s j home loops p
  | (.ended, p) => Ends lines i s p
  | _ => False

omit [Steady σ] in
theorem Finishes.prepend {s t : Pass σ ρ} {home : List Branch} {r : Exit × Page σ ρ}
    (hr : Reaches true lines i s j t) (h : Finishes lines j t k home loops r) :
    Finishes lines i s k home loops r := by
  obtain ⟨exit, p⟩ := r
  cases exit with
  | through => exact Arrives.prepend hr h
  | ended => exact Ends.prepend hr h
  | leave => exact h
  | next => exact h

variable {endText endArgument : List Char} {home : List Branch} {f g : Repetition}

/-- `#loop` goes back for a further iteration. -/
theorem loop_again (hl : lines[j]? = some ⟨endText, .loop .closing endArgument⟩)
    (hc : c.Ready) (hbranches : c.branches = home) (hgroups : f.groups + 1 = home.length)
    (hagain : f.again? = some g) (hquiet : page.cancel.raised = false) :
    Reaches true lines j ⟨c, innermost f loops.blocks loops, page⟩ g.bodyStart
      ⟨c, innermost g loops.blocks loops, page⟩ := by
  have hdepth : f.groups = c.depth := by
    rw [← hbranches, Conditions.length_branches] at hgroups
    omega
  apply Reaches.single
  rw [tick_of_quiet hl hquiet, step_loop_of_taken hc.sound hc.taken rfl hdepth, hagain]
  rfl

/-- `#loop` leaves a loop that has no further iteration. -/
theorem loop_over (hl : lines[j]? = some ⟨endText, .loop .closing endArgument⟩)
    (hc : c.Ready) (hbranches : c.branches = home) (hgroups : f.groups + 1 = home.length)
    (hagain : f.again? = none) (hquiet : page.cancel.raised = false) :
    Arrives lines j ⟨c, innermost f loops.blocks loops, page⟩ (j + 1) home loops page := by
  have hdepth : f.groups = c.depth := by
    rw [← hbranches, Conditions.length_branches] at hgroups
    omega
  refine ⟨c, Reaches.step hl hquiet ?_, hc, hbranches, hquiet⟩
  rw [step_loop_of_taken hc.sound hc.taken rfl hdepth, hagain]
  rfl

/-- All iterations of a loop, from the start of its body on.  The induction is on the
iterations that are left. -/
theorem cycle_lands (hn : Sheet.NoInputs lines) (body : Script)
    (hat : Sheet.Holds lines (i + 1) body.lines)
    (hl : lines[i + 1 + body.size]? = some ⟨endText, .loop .closing endArgument⟩)
    (hbody : ∀ (f : Repetition) (c : Conditions) (p : Page σ ρ), f.groups + 1 = home.length →
      f.isStopped = false → c.Ready → c.branches = home → p.cancel.raised = false →
      Lands lines (i + 1) ⟨c, innermost f loops.blocks loops, p⟩ (i + 1 + body.size) home
        (body.run loops.defaultCount true (innermost f loops.blocks loops).isFirstIteration
          (i + 1) p))
    (times : Nat) (hstart : f.start = i) (hgroups : f.groups + 1 = home.length)
    (hremaining : f.remaining = times) (hiteration : 1 ≤ f.iteration) (hc : c.Ready)
    (hbranches : c.branches = home) (hquiet : page.cancel.raised = false) :
    Finishes lines (i + 1) ⟨c, innermost f loops.blocks loops, page⟩ (i + 1 + body.size + 1) home
      loops
      (cycle (fun first => body.run loops.defaultCount true first (i + 1)) times
        (f.iteration == 1 && loops.isFirstIteration) page) := by
  induction times generalizing f c page with
  | zero =>
    -- no iteration is left, so the body is passed over
    have hdead : live c.branches (innermost f loops.blocks loops).blocks = false :=
      live_of_stopped (stopped_of_remaining hremaining loops.blocks)
    obtain ⟨d, hr, hd⟩ := body.passed hn hat hc.sound hquiet hdead
    have hnone : f.again? = none := Loops.again?_eq_none_iff.mpr (by omega)
    exact (loop_over hl (hc.passed hd) (hd.branches.trans hbranches) hgroups hnone
      hquiet).prepend hr
  | succ times ih =>
    have hruns : f.isStopped = false := by
      simp [Repetition.isStopped, hremaining]
    -- the iterations that are left after this one
    have hagain : ∀ g, f.again? = some g → ∀ (d : Conditions) (p : Page σ ρ), d.Ready →
        d.branches = home → p.cancel.raised = false →
        g.bodyStart = i + 1 ∧ Finishes lines (i + 1) ⟨d, innermost g loops.blocks loops, p⟩
          (i + 1 + body.size + 1) home loops
          (cycle (fun first => body.run loops.defaultCount true first (i + 1)) times false p) := by
      intro g hg d p hd hb hq
      obtain ⟨hs, hgr, hit, hrem, -⟩ := Loops.again?_eq_some hg
      have hrest : Finishes lines (i + 1) ⟨d, innermost g loops.blocks loops, p⟩
          (i + 1 + body.size + 1) home loops
          (cycle (fun first => body.run loops.defaultCount true first (i + 1)) times
            (g.iteration == 1 && loops.isFirstIteration) p) :=
        ih (by omega) (by omega) (by omega) (by omega) hd hb hq
      rw [show (g.iteration == 1) = false by simp; omega, Bool.false_and] at hrest
      exact ⟨by unfold Repetition.bodyStart; omega, hrest⟩
    -- without a further iteration, the cycle ends here
    have hover : f.again? = none → times = 0 := by
      intro hnone
      have hlast := Loops.again?_eq_none_iff.mp hnone
      omega
    have hstop : f.stop.again? = none := rfl
    have hlands := hbody f c page hgroups hruns hc hbranches hquiet
    rw [show (innermost f loops.blocks loops).isFirstIteration =
      (f.iteration == 1 && loops.isFirstIteration) from rfl] at hlands
    rw [cycle]
    generalize body.run loops.defaultCount true (f.iteration == 1 && loops.isFirstIteration)
      (i + 1) page = r at hlands ⊢
    obtain ⟨exit, p⟩ := r
    cases exit with
    | through =>
      obtain ⟨d, hr, hd, hb, hq⟩ := hlands
      dsimp only
      rcases hg : f.again? with _ | g
      · rw [hover hg]
        exact Arrives.prepend hr (loop_over hl hd hb hgroups hg hq)
      · obtain ⟨hbody', hfinishes⟩ := hagain g hg d p hd hb hq
        have hjump : Reaches true lines (i + 1 + body.size)
            ⟨d, innermost f loops.blocks loops, p⟩ g.bodyStart
            ⟨d, innermost g loops.blocks loops, p⟩ := loop_again hl hd hb hgroups hg hq
        rw [hbody'] at hjump
        exact hfinishes.prepend (hr.trans hjump)
    -- the block was stopped, so `#loop` leaves it
    | leave =>
      obtain ⟨f', rest, hblocks, d, hr, hd, hb, hq⟩ := hlands
      cases hblocks
      exact Arrives.prepend hr (loop_over hl hd hb hgroups hstop hq)
    -- the pass is at the next iteration already, or passes over the rest of the last one
    | next =>
      obtain ⟨f', rest, hblocks, hlands⟩ := hlands
      cases hblocks
      dsimp only
      rcases hg : f.again? with _ | g
      · rw [hg] at hlands
        obtain ⟨d, hr, hd, hb, hq⟩ := hlands
        rw [hover hg]
        exact Arrives.prepend hr (loop_over hl hd hb hgroups hstop hq)
      · rw [hg] at hlands
        dsimp only at hlands
        rw [hgroups, Nat.sub_self, List.drop_zero] at hlands
        obtain ⟨d, hr, hd, hb, hq⟩ := hlands
        obtain ⟨hbody', hfinishes⟩ := hagain g hg d p hd hb hq
        rw [hbody'] at hr
        exact hfinishes.prepend hr
    | ended => exact hlands

end Pass

/-! ### Every part of a script -/

omit [MathEngine σ] [Steady σ] in
theorem orAbort_andThen {α : Type} (r : Except Failure α × Page σ ρ)
    (onward : α → Page σ ρ → Exit × Page σ ρ) (rest : Page σ ρ → Exit × Page σ ρ) :
    (orAbort r fun a p => andThen (onward a p) rest) = andThen (orAbort r onward) rest := by
  obtain ⟨e | a, p⟩ := r
  · rfl
  · rfl

section Parts

variable [Plotter ρ σ] {lines : Array Line}

/-- The body of a branch whose condition does not hold is passed over, and the group still
has no match. -/
theorem Script.passed_untaken (hn : Sheet.NoInputs lines) (body : Script) {i : Nat}
    {c : Conditions} {loops : Loops} {page : Page σ ρ} {home : List Branch}
    (hat : Sheet.Holds lines i body.lines) (hsound : c.Sound)
    (hbranches : c.branches = ⟨false, .tested⟩ :: home) (hmatched : c.matched = false)
    (hquiet : page.cancel.raised = false) :
    ∃ d, Pass.Reaches true lines i ⟨c, loops, page⟩ (i + body.size) ⟨d, loops, page⟩ ∧
      d.Sound ∧ d.current.kind = .tested ∧ d.enclosing = home ∧ d.matched = false := by
  have huntaken : c.branches.all Branch.taken = false := by
    rw [hbranches, List.all_cons]
    rfl
  obtain ⟨d, hr, hd⟩ := body.passed hn hat hsound hquiet (live_of_untaken huntaken)
  obtain ⟨hcurrent, henclosing⟩ := List.cons.inj (hd.branches.trans hbranches)
  exact ⟨d, hr, hd.sound, by rw [hcurrent], henclosing, (hd.unmatched huntaken).trans hmatched⟩

/-- Where the innermost block was stopped, a script is passed over. -/
theorem Script.passed_stopped (hn : Sheet.NoInputs lines) (rest : Script) {i : Nat}
    {c : Conditions} {loops : Loops} {page : Page σ ρ} {f : Repetition}
    {blocks : List Repetition} (hat : Sheet.Holds lines i rest.lines) (hc : c.Ready)
    (hquiet : page.cancel.raised = false) :
    ∃ d, Pass.Reaches true lines i ⟨c, Pass.innermost f.stop blocks loops, page⟩ (i + rest.size)
      ⟨d, Pass.innermost f.stop blocks loops, page⟩ ∧ c.Passed d := by
  exact rest.passed hn hat hc.sound hquiet (live_of_stopped (stopped_of_remaining rfl blocks))

/-- Behind the body of a branch that was taken, the further branches are passed over. -/
theorem Alternatives.passed_matched (hn : Sheet.NoInputs lines) (others : Alternatives) {i : Nat}
    {c : Conditions} {loops : Loops} {page : Page σ ρ} {home : List Branch}
    (hat : Sheet.Holds lines i others.lines) (hc : c.Ready)
    (hbranches : c.branches = ⟨true, .tested⟩ :: home) (hne : home ≠ [])
    (hquiet : page.cancel.raised = false) :
    ∃ d, Pass.Reaches true lines i ⟨c, loops, page⟩ (i + others.size) ⟨d, loops, page⟩ ∧
      c.Left d := by
  obtain ⟨hcurrent, henclosing⟩ := List.cons.inj hbranches
  have hkind : c.current.kind = .tested := by rw [hcurrent]
  exact others.passed hn hat hc.sound hquiet (by rw [henclosing]; exact hne) hkind
    fun _ => hc.matched hkind

/-- A condition of a live group that has not matched: if it holds, the body is run and the
further branches are passed over, and if it does not, it is the other way round. -/
theorem Script.lands_test (hn : Sheet.NoInputs lines) (body : Script) (others : Alternatives)
    {i : Nat} {c o : Conditions} {loops : Loops} {page : Page σ ρ} {text : List Char}
    {word : BranchWord} {e : Expression} {inLoop first : Bool}
    (hl : lines[i]? = some ⟨text, .branch word e.chars⟩)
    (hat : Sheet.Holds lines (i + 1) body.lines)
    (hat' : Sheet.Holds lines (i + 1 + body.size) others.lines)
    (henter : c.enter (some word) = .ok o) (hsound : o.Sound)
    (hcurrent : o.current = ⟨true, .tested⟩) (hne : o.enclosing ≠ [])
    (htaken : o.enclosing.all Branch.taken = true) (hpending : o.pending = true)
    (hmatched : o.matched = false) (hruns : stopped loops.blocks = false)
    (hquiet : page.cancel.raised = false)
    (hgroups : ∀ f rest, loops.blocks = f :: rest → f.groups + 1 ≤ o.enclosing.length)
    (hbody : ∀ (d : Conditions) (p : Page σ ρ), d.Ready → p.cancel.raised = false →
      (∀ f rest, loops.blocks = f :: rest → f.groups + 1 ≤ d.branches.length) →
      Pass.Lands lines (i + 1) ⟨d, loops, p⟩ (i + 1 + body.size) d.branches
        (body.run loops.defaultCount inLoop first (i + 1) p))
    (hothers : ∀ (d : Conditions) (p : Page σ ρ), d.Sound → d.enclosing = o.enclosing →
      d.current.kind = .tested → d.matched = false → p.cancel.raised = false →
      Pass.Lands lines (i + 1 + body.size) ⟨d, loops, p⟩ (i + 1 + body.size + others.size)
        d.enclosing (others.run loops.defaultCount inLoop first (i + 1 + body.size) p)) :
    Pass.Lands lines i ⟨c, loops, page⟩ (i + 1 + body.size + others.size) o.enclosing
      (orAbort (page.test text e i) fun holds p =>
        if holds then body.run loops.defaultCount inLoop first (i + 1) p
        else others.run loops.defaultCount inLoop first (i + 1 + body.size) p) := by
  have hlive : live o.branches loops.blocks = true := by
    rw [show o.branches = o.current :: o.enclosing from rfl, live_cons, hcurrent, Bool.true_and]
    exact live_eq_true_iff.mpr ⟨htaken, hruns⟩
  -- the test ends the pass, fails, or holds
  have htick := Pass.tick_condition hl henter hsound hlive hpending hmatched hquiet
  have hflag := page.cancel_test text e i
  generalize page.test text e i = r at htick hflag ⊢
  rcases r with ⟨failure | (_ | _), p⟩
  · exact Pass.Ends.of_aborted htick
  · have hq : p.cancel.raised = false := by
      rw [hflag]
      exact hquiet
    have hbranches : (o.resolve false).branches = ⟨false, .tested⟩ :: o.enclosing := by
      show (⟨false, o.current.kind⟩ : Branch) :: o.enclosing = _
      rw [hcurrent]
    have hm : (o.resolve false).matched = false := by
      show (o.matched || false) = false
      rw [hmatched]
      rfl
    -- it fails: the body is passed over, and the further branches are met unmatched
    obtain ⟨d, hr, hd, hkind, hhome, hm'⟩ :=
      body.passed_untaken hn hat (hsound.resolve false) hbranches hm hq
    have hlands := hothers d p hd hhome hkind hm' hq
    rw [hhome] at hlands
    exact hlands.prepend ((Pass.Reaches.single htick).trans hr) rfl
  · have hq : p.cancel.raised = false := by
      rw [hflag]
      exact hquiet
    have hbranches : (o.resolve true).branches = ⟨true, .tested⟩ :: o.enclosing := by
      show (⟨true, o.current.kind⟩ : Branch) :: o.enclosing = _
      rw [hcurrent]
    have hready : (o.resolve true).Ready := by
      refine ⟨hsound.resolve true, ?_, rfl, ?_⟩
      · rw [hbranches, List.all_cons, htaken]
        rfl
      · intro _
        show (o.matched || true) = true
        exact Bool.or_true _
    -- it holds: the body is run, and behind it the group has matched
    have hlands := hbody _ p hready hq (by
      intro f rest hf
      rw [hbranches]
      exact Nat.le_succ_of_le (hgroups f rest hf))
    rw [hbranches] at hlands
    refine (hlands.outward ?_ hgroups).prepend (.single htick) rfl
    intro d loops p hd hinner hq
    exact others.passed_matched hn hat' hd hinner hne hq

/-- `#break` stops the innermost loop, and the rest of the script is passed over.  Outside
of loops it ends the pass. -/
theorem Script.lands_leave (hn : Sheet.NoInputs lines) (rest : Script) {i : Nat}
    {c : Conditions} {loops : Loops} {page : Page σ ρ} {text argument : List Char}
    (hat : Sheet.Holds lines i (Script.leave text argument rest).lines) (hc : c.Ready)
    (hruns : stopped loops.blocks = false) (hquiet : page.cancel.raised = false) :
    Pass.Lands lines i ⟨c, loops, page⟩ (i + (Script.leave text argument rest).size) c.branches
      ((Script.leave text argument rest).run loops.defaultCount (!loops.blocks.isEmpty)
        loops.isFirstIteration i page) := by
  have hlive : live c.branches loops.blocks = true := live_eq_true_iff.mpr ⟨hc.taken, hruns⟩
  have hsize : i + 1 + rest.size = i + (Script.leave text argument rest).size := by
    rw [Script.size_leave]
    omega
  show Pass.Lands lines i _ _ _ (if (!loops.blocks.isEmpty) = true then .leave else .ended, page)
  rcases hblocks : loops.blocks with _ | ⟨f, blocks⟩
  · have htick := Pass.tick_leave_outside hat.head hc.sound hlive hquiet hblocks
    exact ⟨.stopped, _, Pass.run_of_done htick, by simp, rfl⟩
  · have htick := Pass.tick_leave_inside hat.head hc.sound hlive hquiet hblocks
    obtain ⟨d, hr, hd⟩ := rest.passed_stopped hn hat.tail hc hquiet
    exact ⟨f, blocks, hblocks, d, ((Pass.Reaches.single htick).trans hr).at hsize,
      hc.passed hd, hd.branches, hquiet⟩

/-- `#continue` goes back to the next iteration of the innermost loop, and without one it
does what `#break` does.  Outside of loops it is rejected, and the rest of the script is
run. -/
theorem Script.lands_next (hn : Sheet.NoInputs lines) (rest : Script) {i : Nat}
    {c : Conditions} {loops : Loops} {page : Page σ ρ} {text argument : List Char}
    (hat : Sheet.Holds lines i (Script.next text argument rest).lines) (hc : c.Ready)
    (hruns : stopped loops.blocks = false) (hquiet : page.cancel.raised = false)
    (hgroups : ∀ f rest, loops.blocks = f :: rest → f.groups + 1 ≤ c.branches.length)
    (hrest : ∀ p : Page σ ρ, p.cancel.raised = false →
      Pass.Lands lines (i + 1) ⟨c, loops, p⟩ (i + 1 + rest.size) c.branches
        (rest.run loops.defaultCount (!loops.blocks.isEmpty) loops.isFirstIteration (i + 1) p)) :
    Pass.Lands lines i ⟨c, loops, page⟩ (i + (Script.next text argument rest).size) c.branches
      ((Script.next text argument rest).run loops.defaultCount (!loops.blocks.isEmpty)
        loops.isFirstIteration i page) := by
  have hlive : live c.branches loops.blocks = true := live_eq_true_iff.mpr ⟨hc.taken, hruns⟩
  have hsize : i + 1 + rest.size = i + (Script.next text argument rest).size := by
    rw [Script.size_next]
    omega
  show Pass.Lands lines i _ _ _ (if (!loops.blocks.isEmpty) = true then (.next, page) else
    rest.run loops.defaultCount (!loops.blocks.isEmpty) loops.isFirstIteration (i + 1)
      (page.write [.lineError (String.ofList text) (i + 1)
        StructureError.continueWithoutRepeat.message]))
  rcases hblocks : loops.blocks with _ | ⟨f, blocks⟩
  · have htick := Pass.tick_next_outside hat.head hc.sound hlive hquiet hblocks
    have hlands := hrest (page.write [.lineError (String.ofList text) (i + 1)
      StructureError.continueWithoutRepeat.message]) hquiet
    rw [hblocks] at hlands
    exact (hlands.prepend (.single htick) rfl).at hsize
  · have hle := hgroups f blocks hblocks
    have htick := Pass.tick_next_inside hat.head hc.sound hlive hquiet hblocks
      (by rw [Conditions.length_branches] at hle; omega)
    refine ⟨f, blocks, hblocks, ?_⟩
    rcases hg : f.again? with _ | g
    · rw [hg] at htick
      obtain ⟨d, hr, hd⟩ := rest.passed_stopped hn hat.tail hc hquiet
      exact ⟨d, ((Pass.Reaches.single htick).trans hr).at hsize, hc.passed hd, hd.branches,
        hquiet⟩
    · rw [hg] at htick
      -- the groups opened inside the loop are closed on the way back
      refine ⟨_, .single htick, hc.closeTo f.groups, ?_, hquiet⟩
      apply Conditions.branches_closeTo (List.drop_suffix _ _)
      rw [List.length_drop]
      omega

/-- A loop runs its body as often as its count says, unless the body ends the pass, and
then the rest of the script is run. -/
theorem Script.lands_loop (hn : Sheet.NoInputs lines) (body rest : Script) {i : Nat}
    {c : Conditions} {loops : Loops} {page : Page σ ρ}
    {text count endText endArgument : List Char}
    (hat : Sheet.Holds lines i (Script.loop text count body endText endArgument rest).lines)
    (hc : c.Ready) (hruns : stopped loops.blocks = false) (hquiet : page.cancel.raised = false)
    (hbody : ∀ (f : Repetition) (d : Conditions) (p : Page σ ρ),
      f.groups + 1 = c.branches.length → f.isStopped = false → d.Ready →
      d.branches = c.branches → p.cancel.raised = false →
      Pass.Lands lines (i + 1) ⟨d, Pass.innermost f loops.blocks loops, p⟩ (i + 1 + body.size)
        c.branches (body.run loops.defaultCount true
          (Pass.innermost f loops.blocks loops).isFirstIteration (i + 1) p))
    (hrest : ∀ (d : Conditions) (p : Page σ ρ), d.Ready → d.branches = c.branches →
      p.cancel.raised = false →
      Pass.Lands lines (i + 1 + body.size + 1) ⟨d, loops, p⟩
        (i + 1 + body.size + 1 + rest.size) c.branches
        (rest.run loops.defaultCount (!loops.blocks.isEmpty) loops.isFirstIteration
          (i + 1 + body.size + 1) p)) :
    Pass.Lands lines i ⟨c, loops, page⟩
      (i + (Script.loop text count body endText endArgument rest).size) c.branches
      ((Script.loop text count body endText endArgument rest).run loops.defaultCount
        (!loops.blocks.isEmpty) loops.isFirstIteration i page) := by
  have hinside := hat.tail
  have hlive : live c.branches loops.blocks = true := live_eq_true_iff.mpr ⟨hc.taken, hruns⟩
  have htick := Pass.tick_repeat hat.head hc.sound hlive hquiet
  have hflag := page.cancel_repetitions loops.defaultCount text count i
  have hsize : i + 1 + body.size + 1 + rest.size =
      i + (Script.loop text count body endText endArgument rest).size := by
    rw [Script.size_loop]
    omega
  show Pass.Lands lines i _ _ _ (orAbort (page.repetitions loops.defaultCount text count i)
    fun times p => andThen (cycle (fun first => body.run loops.defaultCount true first (i + 1))
      times loops.isFirstIteration p) fun p => rest.run loops.defaultCount
        (!loops.blocks.isEmpty) loops.isFirstIteration (i + 1 + body.size + 1) p)
  generalize page.repetitions loops.defaultCount text count i = r at htick hflag ⊢
  rcases r with ⟨e | times, p⟩
  · exact Pass.Ends.of_aborted htick
  have hopened := Pass.Reaches.single htick
  have hcycle : Pass.Finishes lines (i + 1)
      ⟨c, Pass.innermost (.first i times c.depth) loops.blocks loops, p⟩
      (i + 1 + body.size + 1) c.branches loops
      (cycle (fun first => body.run loops.defaultCount true first (i + 1)) times
        loops.isFirstIteration p) :=
    Pass.cycle_lands hn body hinside.left hinside.right.head hbody times rfl rfl rfl
      (Nat.le_refl 1) hc rfl (by rw [hflag]; exact hquiet)
  dsimp only [orAbort]
  generalize cycle (fun first => body.run loops.defaultCount true first (i + 1)) times
    loops.isFirstIteration p = r at hcycle ⊢
  obtain ⟨exit, q⟩ := r
  cases exit with
  | through =>
    obtain ⟨d, hr, hd, hbranches, hq⟩ := hcycle
    exact ((hrest d q hd hbranches hq).prepend (hopened.trans hr) rfl).at hsize
  | ended => exact Pass.Ends.prepend hopened hcycle
  | leave => exact hcycle.elim
  | next => exact hcycle.elim

mutual

/-- **Every script lands where its run says**, from a place where lines are run. -/
theorem Script.lands (hn : Sheet.NoInputs lines) (b : Script) {i : Nat} {c : Conditions}
    {loops : Loops} {page : Page σ ρ} (hat : Sheet.Holds lines i b.lines) (hc : c.Ready)
    (hruns : stopped loops.blocks = false) (hquiet : page.cancel.raised = false)
    (hgroups : ∀ f rest, loops.blocks = f :: rest → f.groups + 1 ≤ c.branches.length) :
    Pass.Lands lines i ⟨c, loops, page⟩ (i + b.size) c.branches
      (b.run loops.defaultCount (!loops.blocks.isEmpty) loops.isFirstIteration i page) := by
  have hlive : live c.branches loops.blocks = true := live_eq_true_iff.mpr ⟨hc.taken, hruns⟩
  match b with
  | .done => exact ⟨c, .here, hc, rfl, hquiet⟩
  | .blank text rest =>
    have htick := Pass.tick_blank hat.head hc.sound hlive hquiet
    have hquiet' : (page.writeIf page.visible
        (blankPieces (scriptVisit loops.isFirstIteration i text))).cancel.raised = false := by
      rw [Page.cancel_writeIf]
      exact hquiet
    have hrest := rest.lands hn hat.tail hc hruns hquiet' hgroups
    refine (hrest.prepend (.single htick) rfl).at ?_
    rw [Script.size_blank]
    omega
  | .content text rest =>
    have htick := Pass.tick_content hat.head hc.sound hlive hc.pending hquiet
    have hflag := page.cancel_showSegments (scriptVisit loops.isFirstIteration i text) none text
    show Pass.Lands lines i _ _ _ (orAbort
      (page.showSegments (scriptVisit loops.isFirstIteration i text) none text) fun _ p =>
        rest.run loops.defaultCount (!loops.blocks.isEmpty) loops.isFirstIteration (i + 1) p)
    generalize page.showSegments (scriptVisit loops.isFirstIteration i text) none text = r
      at htick hflag ⊢
    rcases r with ⟨e | value, p⟩
    · exact Pass.Ends.of_aborted htick
    · have hrest := rest.lands hn hat.tail hc.clearLabel hruns (by rw [hflag]; exact hquiet) hgroups
      refine (hrest.prepend (.single htick) rfl).at ?_
      rw [Script.size_content]
      omega
  | .leave text argument rest => exact rest.lands_leave hn hat hc hruns hquiet
  | .next text argument rest =>
    refine rest.lands_next hn hat hc hruns hquiet hgroups ?_
    intro p hq
    exact rest.lands hn hat.tail hc hruns hq hgroups
  | .group text condition body others rest =>
    have hinside := hat.tail
    obtain ⟨o, henter, hcurrent, henclosing, hpending, hmatched⟩ :
        ∃ o, c.enter (some .opening) = .ok o ∧ o.current = ⟨true, .tested⟩ ∧
          o.enclosing = c.branches ∧ o.pending = true ∧ o.matched = false := by
      refine ⟨_, rfl, rfl, rfl, rfl, ?_⟩
      show (if c.isTaken then false else c.matched) = false
      rw [Conditions.isTaken_eq hc.sound, hc.taken]
      rfl
    have hgroup : Pass.Lands lines i ⟨c, loops, page⟩ (i + 1 + body.size + others.size)
        o.enclosing (orAbort (page.test text condition i) fun holds p =>
          if holds then
            body.run loops.defaultCount (!loops.blocks.isEmpty) loops.isFirstIteration (i + 1) p
          else others.run loops.defaultCount (!loops.blocks.isEmpty) loops.isFirstIteration
            (i + 1 + body.size) p) := by
      have htaken := hc.taken
      have hne : c.branches ≠ [] := List.cons_ne_nil _ _
      rw [← henclosing] at htaken hne hgroups
      refine Script.lands_test hn body others hat.head hinside.left hinside.right.left henter
        (hc.sound.enter henter) hcurrent hne htaken hpending hmatched hruns hquiet hgroups ?_ ?_
      · intro d p hd hq hle
        exact body.lands hn hinside.left hd hruns hq hle
      · intro d p hd hhome hkind hm hq
        rw [← hhome] at hne htaken hgroups
        exact others.lands hn hinside.right.left hd hne hkind htaken hm hruns hq hgroups
    have hsize : i + 1 + body.size + others.size + rest.size =
        i + (Script.group text condition body others rest).size := by
      rw [Script.size_group]
      omega
    rw [henclosing] at hgroup
    show Pass.Lands lines i _ _ _ (orAbort (page.test text condition i) fun holds p => andThen _ _)
    rw [orAbort_andThen]
    refine (hgroup.andThen ?_ ?_).at hsize
    · intro d loops p hd hq hdead
      exact rest.passed hn hinside.right.right hd hq hdead
    · intro d p hd hbranches hq
      rw [← hbranches]
      exact rest.lands hn hinside.right.right hd hruns hq (by rw [hbranches]; exact hgroups)
  | .loop text count body endText endArgument rest =>
    have hinside := hat.tail
    refine Script.lands_loop hn body rest hat hc hruns hquiet ?_ ?_
    · intro f d p hf hrun hd hbranches hq
      rw [← hbranches] at hf ⊢
      refine body.lands hn hinside.left hd hrun hq ?_
      intro f' rest' hblocks
      cases hblocks
      exact Nat.le_of_eq hf
    · intro d p hd hbranches hq
      rw [← hbranches] at hgroups ⊢
      exact rest.lands hn hinside.right.tail hd hruns hq hgroups

/-- The further branches of a live group that has not matched. -/
theorem Alternatives.lands (hn : Sheet.NoInputs lines) (a : Alternatives) {i : Nat}
    {c : Conditions} {loops : Loops} {page : Page σ ρ} (hat : Sheet.Holds lines i a.lines)
    (hsound : c.Sound) (hne : c.enclosing ≠ []) (hkind : c.current.kind = .tested)
    (htaken : c.enclosing.all Branch.taken = true) (hmatched : c.matched = false)
    (hruns : stopped loops.blocks = false) (hquiet : page.cancel.raised = false)
    (hgroups : ∀ f rest, loops.blocks = f :: rest → f.groups + 1 ≤ c.enclosing.length) :
    Pass.Lands lines i ⟨c, loops, page⟩ (i + a.size) c.enclosing
      (a.run loops.defaultCount (!loops.blocks.isEmpty) loops.isFirstIteration i page) := by
  match a with
  | .closing text =>
    obtain ⟨d, hr, hd⟩ : ∃ d, Pass.Reaches true lines i ⟨c, loops, page⟩ (i + 1)
        ⟨d, loops, page⟩ ∧ c.Left d :=
      Pass.passed_closing hat.head (hn i _ hat.head) hsound hquiet hne
    exact ⟨d, hr, .left hd htaken, hd.branches, hquiet⟩
  | .otherwise text body endText =>
    have hinside := hat.tail
    obtain ⟨o, henter, hbranches, hpending⟩ : ∃ o, c.enter (some .otherwise) = .ok o ∧
        o.branches = ⟨true, .otherwise⟩ :: c.enclosing ∧ o.pending = false := by
      refine ⟨_, Conditions.enter_of_fits (Conditions.misplaced_of_tested .otherwise hne hkind), ?_,
        rfl⟩
      show (⟨!c.matched, .otherwise⟩ : Branch) :: c.enclosing = _
      rw [hmatched]
      rfl
    have hready : o.Ready := by
      refine ⟨hsound.enter henter, ?_, hpending, ?_⟩
      · rw [hbranches, List.all_cons, htaken]
        rfl
      · intro hkind'
        rw [(List.cons.inj hbranches).1] at hkind'
        cases hkind'
    -- a group that has not matched takes its `#else`
    have hstep : Pass.Reaches true lines i ⟨c, loops, page⟩ (i + 1) ⟨o, loops, page⟩ :=
      .step hat.head hquiet (Pass.step_bare henter hpending (hn i _ hat.head))
    have hbody := body.lands hn hinside.left hready hruns hquiet (by
      intro f rest hf
      rw [hbranches]
      exact Nat.le_succ_of_le (hgroups f rest hf))
    rw [hbranches] at hbody
    refine Pass.Lands.at (j := i + 1 + body.size + 1) ?_ ?_
    · refine (hbody.outward ?_ hgroups).prepend hstep rfl
      intro d loops p hd hinner hq
      obtain ⟨-, henclosing⟩ := List.cons.inj hinner
      exact Pass.passed_closing hinside.right.head (hn _ _ hinside.right.head) hd.sound hq
        (by rw [henclosing]; exact hne)
    · rw [Alternatives.size_otherwise]
      omega
  | .tested text condition body others =>
    have hinside := hat.tail
    obtain ⟨o, henter, hcurrent, henclosing, hpending, hm⟩ :
        ∃ o, c.enter (some .alternative) = .ok o ∧ o.current = ⟨true, .tested⟩ ∧
          o.enclosing = c.enclosing ∧ o.pending = true ∧ o.matched = false :=
      ⟨_, Conditions.enter_of_fits (Conditions.misplaced_of_tested .alternative hne hkind), rfl,
        rfl, rfl, hmatched⟩
    have htest : Pass.Lands lines i ⟨c, loops, page⟩ (i + 1 + body.size + others.size)
        o.enclosing (orAbort (page.test text condition i) fun holds p =>
          if holds then
            body.run loops.defaultCount (!loops.blocks.isEmpty) loops.isFirstIteration (i + 1) p
          else others.run loops.defaultCount (!loops.blocks.isEmpty) loops.isFirstIteration
            (i + 1 + body.size) p) := by
      rw [← henclosing] at htaken hgroups hne
      refine Script.lands_test hn body others hat.head hinside.left hinside.right henter
        (hsound.enter henter) hcurrent hne htaken hpending hm hruns hquiet hgroups ?_ ?_
      · intro d p hd hq hle
        exact body.lands hn hinside.left hd hruns hq hle
      · intro d p hd hhome hkind' hm' hq
        rw [← hhome] at hne htaken hgroups
        exact others.lands hn hinside.right hd hne hkind' htaken hm' hruns hq hgroups
    rw [henclosing] at htest
    refine htest.at ?_
    rw [Alternatives.size_tested]
    omega

end

end Parts

/-! ### Whole sheets -/

namespace Workbench

variable [Plotter ρ σ]

end Workbench

namespace Workbench

variable {ρ : Type} [Plotter ρ Arithmetic.Engine]

end Workbench

end Worksheet
