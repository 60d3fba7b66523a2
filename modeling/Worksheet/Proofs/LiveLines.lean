/-
What a pass makes of a live line of a script.

Each line of a script has its meaning in `Script.run`: a condition is tested, a count is
evaluated, a content line shows its segments.  The statements here say that a pass does the
same at such a line, and with which groups and blocks it goes on.

* `Page.showSegments_expression` — a line that holds a single expression;
* `Pass.tick_condition` — a condition is tested, and settles its branch;
* `Pass.tick_repeat` — a count is evaluated, and opens a block;
* `Pass.tick_content`, `Pass.tick_blank` — lines that only show something;
* `Pass.tick_leave_inside`, `Pass.tick_next_inside` — `#break` and `#continue`.
-/
import Worksheet.Proofs.Quoting
import Worksheet.Proofs.Script
import Worksheet.Proofs.Steady
import Worksheet.Proofs.Visits

namespace Worksheet

/-! ### Lines with a single expression -/

/-- An expression that stands alone is the only segment of its line. -/
theorem segments_expression (valueOnly : Bool) (e : Expression) :
    segments valueOnly e.chars = [⟨.expression, e.chars⟩] := by
  have hshown : Outside.isBlank ⟨e.chars, e.unquoted⟩ = false := by
    rw [Bool.eq_false_iff]
    intro hblank
    exact e.visible ((Text.trim_eq_nil_iff _).mpr (List.all_eq_true.mp hblank))
  have hsegments := segments_chars valueOnly (.plain ⟨e.chars, e.unquoted⟩)
  rw [Quoting.chars, Quoting.segments, Outside.segments, hshown] at hsegments
  exact hsegments

variable {σ ρ : Type}

namespace Page

variable [MathEngine σ]

/-- In a calculated sheet, an expression of a condition is evaluated, and nothing is shown. -/
theorem expression_unshown {v : Visit} (hv : v.calculate = true) (text : String) (p : Page σ ρ) :
    p.expression v false true text = ((p.evaluate text).1.map some, (p.evaluate text).2) := by
  rw [expression, evaluate]
  rcases p.parse text with ⟨_ | _, q⟩
  · rfl
  · dsimp only
    rw [hv, show (true && (q.mode != .uncalculated || true)) = true by simp, if_pos rfl]
    rcases q.calculate with ⟨_ | _, r⟩
    · rfl
    · rfl

/-- In a calculated sheet, the line of a condition writes nothing of its own: its segments are
walked over, all of them. -/
theorem showSegments_unshown {v : Visit} (hv : v.calculate = true) (word : BranchWord)
    (body : List Char) (p : Page σ ρ) :
    p.showSegments v (some word) body =
      p.walk v false true (segments (p.mode == .valueOnly) body) none := by
  have hshows : (p.visible && (!v.calculate || (some word).isNone)) = false := by
    rw [hv]
    exact Bool.and_false _
  have hunshown : ∀ (q : Page σ ρ) (pieces : List Piece), q.writeIf false pieces = q :=
    fun _ _ => rfl
  rw [showSegments]
  generalize segments (p.mode == .valueOnly) body = all
  dsimp only
  rw [hshows, hunshown, Option.isSome_some]
  -- markup at the start of the line is not shown either
  have hmarkup : p.walk v false true (leadingMarkup v all).2 none =
      p.walk v false true all none := by
    rcases all with _ | ⟨⟨kind, chars⟩, rest⟩
    · rfl
    · cases kind <;> rfl
  rw [hmarkup]
  rcases p.walk v false true all none with ⟨_ | _, q⟩
  · rfl
  · rfl

/-- In a calculated sheet, a line that holds a single expression behind its branch word
evaluates that expression and reports its refusal. -/
theorem showSegments_expression {v : Visit} (hv : v.calculate = true) (word : BranchWord)
    (e : Expression) (p : Page σ ρ) :
    p.showSegments v (some word) e.chars =
      match p.evaluate (String.ofList e.chars) with
      | (.error (.crashed payload), p) => (.error (.crashed payload), p)
      | (.error (.refused message), p) =>
        (.ok none, p.write
          [.lineError (String.ofList (Text.trim e.chars)) v.number message])
      | (.ok value, p) => (.ok (some value), p) := by
  rw [showSegments_unshown hv, segments_expression, walk, if_pos rfl,
    show Segment.text ⟨.expression, e.chars⟩ = String.ofList e.chars from rfl,
    expression_unshown hv]
  rcases p.evaluate (String.ofList e.chars) with ⟨(message | payload) | value, q⟩
  · show (Except.ok none, q.write [.lineError (quoted v.calculate e.chars) v.number message]) = _
    rw [hv]
    rfl
  · rfl
  · rfl

end Page

/-! ### Steps at live lines -/

namespace Pass

variable [MathEngine σ] [Plotter ρ σ] [Steady σ] {lines : Array Line} {i : Nat}
  {c d : Conditions} {loops : Loops} {page : Page σ ρ} {text : List Char} {word : BranchWord}

/-- Settling a condition by its value agrees with testing the value. -/
theorem judge_eq (value : Complex) (c : Conditions) :
    c.judge value =
      match Page.truth value with
      | .ok holds => (.ok (), c.resolve holds)
      | .error cause => (.error cause, c.resolve false) := by
  rw [Conditions.judge, Page.truth]
  split
  · rfl
  split
  · rfl
  · rfl

/-- A condition of a live group that has not matched is tested, and settles the branch that
waits for it. -/
theorem tick_condition {e : Expression} (hl : lines[i]? = some ⟨text, .branch word e.chars⟩)
    (henter : c.enter (some word) = .ok d) (hsound : d.Sound)
    (hlive : live d.branches loops.blocks = true) (hpending : d.pending = true)
    (hmatched : d.matched = false) (hquiet : page.cancel.raised = false) :
    tick true lines i ⟨c, loops, page⟩ =
      match page.test text e i with
      | (.error e, p) => .done .aborted ⟨d, loops, p.abort e⟩
      | (.ok holds, p) => .go (i + 1) ⟨d.resolve holds, loops, p⟩ := by
  have hvisible : e.chars ≠ [] := by
    intro hnil
    exact e.visible (by rw [hnil]; rfl)
  rw [tick_of_quiet hl hquiet, step_word_of_live henter hsound hlive
    (by rw [hmatched, Bool.false_and]) hvisible]
  dsimp only
  rw [Page.showLine, Page.test, Page.showSegments_expression rfl]
  rcases page.evaluate (String.ofList e.chars) with ⟨(message | payload) | value, p⟩
  · dsimp only
    rw [Page.settle, hpending]
    rfl
  · rfl
  · dsimp only
    rw [Page.settle, hpending]
    show follow _ i ((((d.judge value).1.mapError Fault.calculation).map fun _ => Flow.next),
      (⟨(d.judge value).2, loops, p⟩ : Pass σ ρ)) = _
    rw [judge_eq]
    rcases Page.truth value with cause | holds
    · rfl
    · rfl

/-- A live content line shows its segments. -/
theorem tick_content (hl : lines[i]? = some ⟨text, .content⟩) (hsound : c.Sound)
    (hlive : live c.branches loops.blocks = true) (hpending : c.pending = false)
    (hquiet : page.cancel.raised = false) :
    tick true lines i ⟨c, loops, page⟩ =
      match page.showSegments (scriptVisit loops.isFirstIteration i text) none text with
      | (.error e, p) => .done .aborted ⟨{ c with label := none }, loops, p.abort e⟩
      | (.ok _, p) => .go (i + 1) ⟨{ c with label := none }, loops, p⟩ := by
  rw [tick_of_quiet hl hquiet, step_content_of_live hsound hlive]
  dsimp only
  rw [Page.showLine]
  rw [show visit true ⟨text, .content⟩ i ⟨c, loops, page⟩ =
    scriptVisit loops.isFirstIteration i text from rfl]
  rcases hs : page.showSegments (scriptVisit loops.isFirstIteration i text) none text with
    ⟨e | value, p⟩
  · obtain ⟨payload, rfl⟩ := Page.showSegments_error hs
    rfl
  · dsimp only
    unfold Page.settle
    rw [show ({ c with label := none } : Conditions).pending = false from hpending]
    rfl

theorem tick_blank (hl : lines[i]? = some ⟨text, .blank⟩) (hsound : c.Sound)
    (hlive : live c.branches loops.blocks = true) (hquiet : page.cancel.raised = false) :
    tick true lines i ⟨c, loops, page⟩ =
      .go (i + 1) ⟨c, loops, page.writeIf page.visible
        (blankPieces (scriptVisit loops.isFirstIteration i text))⟩ := by
  rw [tick_of_quiet hl hquiet]
  show Progress.go (i + 1) (⟨c, loops, page.writeIf
    (page.visible && (!true || isLive ⟨c, loops, page⟩)) _⟩ : Pass σ ρ) = _
  rw [isLive_eq hsound, hlive, show (page.visible && (!true || true)) = page.visible by simp]
  rfl

/-- A live `#repeat` evaluates its count and opens a block. -/
theorem tick_repeat {count : List Char} (hl : lines[i]? = some ⟨text, .loop .opening count⟩)
    (hsound : c.Sound) (hlive : live c.branches loops.blocks = true)
    (hquiet : page.cancel.raised = false) :
    tick true lines i ⟨c, loops, page⟩ =
      match page.repetitions loops.defaultCount text count i with
      | (.error e, p) => .done .aborted ⟨c, loops, p.abort e⟩
      | (.ok times, p) => .go (i + 1) ⟨c, loops.enter i (some times) c.depth, p⟩ := by
  obtain ⟨htaken, hruns⟩ := live_eq_true_iff.mp hlive
  rw [tick_of_quiet hl hquiet]
  have hstep : step true ⟨text, .loop .opening count⟩ i ⟨c, loops, page⟩ =
      (let r := enterLoop (visit true ⟨text, .loop .opening count⟩ i ⟨c, loops, page⟩) i count
        ⟨c, loops, page⟩;
      (r.1.map fun _ => Flow.next, r.2)) := rfl
  rw [hstep, enterLoop]
  rw [if_neg (by simp [visit]), Conditions.isTaken_eq hsound, htaken, isStopped_eq, hruns]
  rw [Page.repetitions, Page.iterationCount]
  dsimp only
  -- without a count the loop has the default one, and no engine is asked
  rw [if_neg (by simp), if_neg (by simp)]
  split
  · rfl
  · rcases page.evaluate (String.ofList count) with ⟨(message | payload) | value, p⟩
    · rfl
    · rfl
    · dsimp only
      rcases Page.countOfValue value.re with cause | times
      · rfl
      · rfl

/-! Live `#break` and `#continue`, outside of any loop and inside of one. -/

variable {argument : List Char} {f : Repetition} {rest : List Repetition}

theorem tick_leave_outside (hl : lines[i]? = some ⟨text, .loop .leave argument⟩) (hsound : c.Sound)
    (hlive : live c.branches loops.blocks = true) (hquiet : page.cancel.raised = false)
    (hblocks : loops.blocks = []) :
    tick true lines i ⟨c, loops, page⟩ = .done .stopped ⟨c, loops, page⟩ := by
  rw [tick_of_quiet hl hquiet, step_leave_of_live hsound hlive, Loops.leave?, hblocks]
  rfl

theorem tick_leave_inside (hl : lines[i]? = some ⟨text, .loop .leave argument⟩) (hsound : c.Sound)
    (hlive : live c.branches loops.blocks = true) (hquiet : page.cancel.raised = false)
    (hblocks : loops.blocks = f :: rest) :
    tick true lines i ⟨c, loops, page⟩ =
      .go (i + 1) ⟨c, { loops with blocks := f.stop :: rest }, page⟩ := by
  rw [tick_of_quiet hl hquiet, step_leave_of_live hsound hlive, Loops.leave?, hblocks]
  rfl

theorem tick_next_outside (hl : lines[i]? = some ⟨text, .loop .next argument⟩) (hsound : c.Sound)
    (hlive : live c.branches loops.blocks = true) (hquiet : page.cancel.raised = false)
    (hblocks : loops.blocks = []) :
    tick true lines i ⟨c, loops, page⟩ =
      .go (i + 1) ⟨c, loops, page.write [.lineError (String.ofList text) (i + 1)
        StructureError.continueWithoutRepeat.message]⟩ := by
  rw [tick_of_quiet hl hquiet, step_next_of_live hsound hlive, Loops.advance, hblocks]
  rfl

theorem tick_next_inside (hl : lines[i]? = some ⟨text, .loop .next argument⟩) (hsound : c.Sound)
    (hlive : live c.branches loops.blocks = true) (hquiet : page.cancel.raised = false)
    (hblocks : loops.blocks = f :: rest) (hgroups : f.groups ≤ c.depth) :
    tick true lines i ⟨c, loops, page⟩ =
      match f.again? with
      | some g =>
        .go g.bodyStart ⟨c.closeTo f.groups, { loops with blocks := g :: rest }, page⟩
      | none => .go (i + 1) ⟨c, { loops with blocks := f.stop :: rest }, page⟩ := by
  rw [tick_of_quiet hl hquiet, step_next_of_live hsound hlive, Loops.advance, hblocks]
  dsimp only
  rw [if_neg (Nat.not_lt.mpr hgroups)]
  rcases hg : f.again? with _ | g
  · rfl
  · rw [show f.groups = g.groups from (Loops.again?_eq_some hg).2.1.symm]
    rfl

end Pass

end Worksheet
