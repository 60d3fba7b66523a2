/-
Conditions that wait.

A condition that is met where lines are passed over waits for its value.  Its branch counts as
taken meanwhile, and no line settles it as long as lines are passed over.  This is the one way
in which a line with content can change which branch is shown: if the stopped loop around a
waiting condition is closed before its group is, the lines that follow are shown again, and the
first of them with content settles the condition by its own value.  Elsewhere, and in a
well-nested sheet everywhere, content leaves the groups as they are, and only branch words and a
`#continue` that goes back change them.

* `Pass.Exposed` — a condition waits where lines are shown;
* `Pass.Releases` — the only step that leads there, with `Pass.exposed_step`;
* `Pass.Reaches.released` — where the waiting condition of a place comes from;
* `Workbench.waiting_condition_settled` — what each line does to the groups.
-/
import Worksheet.Proofs.BalancedPass
import Worksheet.Proofs.Openings
import Worksheet.Proofs.Visits

namespace Worksheet

variable {σ ρ : Type}

namespace Loops

/-- `#continue` leaves a condition waiting, and its block running, only where it is at fault. -/
theorem advance_exposed {c : Conditions} {s : Loops}
    (hpending : (s.advance c).2.2.pending = true) (hrun : (s.advance c).2.1.isStopped = false) :
    (s.advance c).2.1 = s ∧ (s.advance c).2.2 = c := by
  obtain ⟨blocks, count⟩ := s
  cases blocks with
  | nil => exact ⟨rfl, rfl⟩
  | cons f rest =>
    simp only [advance] at hpending hrun ⊢
    split at hpending
    · next hentangled =>
      rw [if_pos hentangled]
      exact ⟨rfl, rfl⟩
    · next hfits =>
      rw [if_neg hfits] at hrun
      -- going back settles the condition, and staying stops the block
      rcases hagain : f.again? with _ | g
      · rw [hagain] at hrun
        cases hrun
      · rw [hagain] at hpending
        cases hpending

/-- `#loop` closes a stopped block, whether or not it fits the groups. -/
theorem close_of_stopped {s : Loops} (hstopped : s.isStopped = true) (depth : Nat) :
    ∃ f rest, s.blocks = f :: rest ∧ f.isStopped = true ∧ (s.close depth).2.blocks = rest := by
  obtain ⟨blocks, count⟩ := s
  cases blocks with
  | nil => cases hstopped
  | cons f rest =>
    have hf : f.isStopped = true := hstopped
    refine ⟨f, rest, rfl, hf, ?_⟩
    simp only [close]
    split
    · rfl
    · have hlast : f.again? = none := by
        rw [again?_eq_none_iff]
        have hzero : f.remaining = 0 := by simpa [Repetition.isStopped] using hf
        omega
      rw [hlast]

end Loops

namespace Pass

/-- A condition waits for its value where lines are shown. -/
def Exposed (s : Pass σ ρ) : Prop :=
  s.conditions.pending = true ∧ s.conditions.isTaken = true ∧ s.loops.isStopped = false

theorem exposed_iff {s : Pass σ ρ} :
    s.Exposed ↔ s.conditions.pending = true ∧ s.isLive = true := by
  rw [Exposed, isLive, Bool.and_eq_true, Bool.not_eq_true']

theorem Exposed.congr {s t : Pass σ ρ} (h : s.Exposed) (hconditions : t.conditions = s.conditions)
    (hloops : t.loops = s.loops) : t.Exposed := by
  rw [Exposed, hconditions, hloops]
  exact h

variable [MathEngine σ] [Plotter ρ σ]

/-- At a line, a condition that waits is released: a `#loop` closes the stopped block around
it. -/
structure Releases (line : Line) (i : Nat) (s : Pass σ ρ) : Prop where
  form : ∃ argument, line.form = .loop .closing argument
  pending : s.conditions.pending = true
  taken : s.conditions.isTaken = true
  closes : ∃ f rest, s.loops.blocks = f :: rest ∧ f.isStopped = true ∧
    (s.step true line i).2.loops.blocks = rest

/-! ### The step that exposes a condition -/

omit [Plotter ρ σ] in
/-- A line that was entered leaves no condition waiting where it is live. -/
theorem content_not_live {v : Visit} {stopped : Bool} {word : Option BranchWord}
    {body : List Char} {c : Conditions} {p : Page σ ρ}
    (hgoes : ∀ fault, (p.content v stopped word body c).1 = .error fault → fault.isFatal = false)
    (hpending : (p.content v stopped word body c).2.1.pending = true) :
    ((p.content v stopped word body c).2.1.isTaken && !stopped) = false := by
  rcases p.content_conditions v stopped word body c with ⟨fault, hfault, hfatal⟩ |
    ⟨heq, hdead⟩ | ⟨-, -, hsettled⟩
  · rw [hgoes fault hfault] at hfatal
    cases hfatal
  · rw [heq] at hpending ⊢
    exact (hdead hpending).2
  · rw [hsettled.pending] at hpending
    cases hpending

omit [Plotter ρ σ] in
theorem exposed_visitContent {v : Visit} {word : Option BranchWord} {body : List Char}
    {s : Pass σ ρ}
    (hgoes : ∀ fault, (s.visitContent v word body).1 = .error fault → fault.isFatal = false)
    (h : (s.visitContent v word body).2.Exposed) :
    (s.visitContent v word body).2.conditions = s.conditions ∧ s.Exposed := by
  rw [visitContent] at hgoes h ⊢
  split
  · next henter =>
    rw [henter] at h
    exact ⟨rfl, h⟩
  · next c henter =>
    rw [henter] at hgoes h
    obtain ⟨hpending, htaken, hstopped⟩ := h
    have hdead := content_not_live hgoes hpending
    dsimp only at htaken hstopped
    rw [htaken, hstopped] at hdead
    cases hdead

omit [Plotter ρ σ] in
theorem exposed_enterLoop {v : Visit} (hv : v.calculate = true) {index : Nat}
    {argument : List Char} {s : Pass σ ρ} (h : (s.enterLoop v index argument).2.Exposed) :
    (s.enterLoop v index argument).2.conditions = s.conditions ∧ s.Exposed := by
  have hconditions := conditions_enterLoop v index argument s
  obtain ⟨hpending, htaken, hstopped⟩ := h
  rw [hconditions] at hpending htaken
  refine ⟨hconditions, hpending, htaken, ?_⟩
  -- inside a stopped block, another one is opened that is stopped
  rcases hs : s.loops.isStopped with _ | _
  · rfl
  · rw [enterLoop, hv, htaken, hs] at hstopped
    cases hstopped

omit [MathEngine σ] [Plotter ρ σ] in
theorem exposed_leaveLoop {v : Visit} (hv : v.calculate = true) {s : Pass σ ρ}
    (h : (s.leaveLoop v).2.Exposed) :
    (s.leaveLoop v).2.conditions = s.conditions ∧ s.Exposed := by
  rw [leaveLoop, hv] at h ⊢
  rw [if_neg (by decide)] at h ⊢
  split at h
  · next hlive =>
    rw [if_pos hlive]
    rcases hleave : s.loops.leave? with _ | loops
    · rw [hleave] at h
      exact ⟨rfl, h⟩
    · rw [hleave] at h
      -- the innermost block was stopped
      rw [Loops.leave?] at hleave
      split at hleave
      · cases hleave
      · cases hleave
        cases h.2.2
  · next hdead =>
    rw [if_neg hdead]
    exact ⟨rfl, h⟩

omit [MathEngine σ] [Plotter ρ σ] in
theorem exposed_continueLoop {v : Visit} (hv : v.calculate = true) {s : Pass σ ρ}
    (h : (s.continueLoop v).2.Exposed) :
    (s.continueLoop v).2.conditions = s.conditions ∧ s.Exposed := by
  rw [continueLoop, hv] at h ⊢
  rw [if_neg (by decide)] at h ⊢
  split at h
  · next hlive =>
    rw [if_pos hlive]
    obtain ⟨hpending, htaken, hstopped⟩ := h
    obtain ⟨hloops, hconditions⟩ := Loops.advance_exposed hpending hstopped
    dsimp only at hpending htaken hstopped ⊢
    rw [hconditions] at hpending htaken ⊢
    rw [hloops] at hstopped
    exact ⟨rfl, hpending, htaken, hstopped⟩
  · next hdead =>
    rw [if_neg hdead]
    exact ⟨rfl, h⟩

omit [MathEngine σ] [Plotter ρ σ] in
/-- `#loop` leaves the groups as they are, and closes a stopped block or finds its block
running. -/
theorem exposed_closeLoop {v : Visit} (hv : v.calculate = true) {s : Pass σ ρ}
    (h : (s.closeLoop v).2.Exposed) :
    (s.closeLoop v).2.conditions = s.conditions ∧ (s.Exposed ∨
      s.conditions.pending = true ∧ s.conditions.isTaken = true ∧ ∃ f rest,
        s.loops.blocks = f :: rest ∧ f.isStopped = true ∧
          (s.closeLoop v).2.loops.blocks = rest) := by
  rw [closeLoop, hv] at h ⊢
  rw [if_neg (by decide)] at h ⊢
  split at h
  · next htaken =>
    rw [if_pos htaken]
    refine ⟨rfl, ?_⟩
    rcases hs : s.loops.isStopped with _ | _
    · exact .inl ⟨h.1, htaken, hs⟩
    · exact .inr ⟨h.1, htaken, Loops.close_of_stopped hs _⟩
  · next hdead =>
    rw [if_neg hdead]
    exact ⟨rfl, .inl h⟩

/-- **A waiting condition is exposed by its release only.**  After any step that does not end
the pass, a condition waits where lines are shown only if the groups are as they were, and it
either was exposed before or is released now. -/
theorem exposed_step {line : Line} {i : Nat} {s : Pass σ ρ}
    (hgoes : ∀ fault, (s.step true line i).1 = .error fault → fault.isFatal = false)
    (h : (s.step true line i).2.Exposed) :
    (s.step true line i).2.conditions = s.conditions ∧ (s.Exposed ∨ s.Releases line i) := by
  have hcontent : ∀ (v : Visit) (word : Option BranchWord) (body : List Char),
      (∀ fault, ((s.visitContent v word body).1.map fun _ => Flow.next) = .error fault →
        fault.isFatal = false) → (s.visitContent v word body).2.Exposed →
      (s.visitContent v word body).2.conditions = s.conditions ∧
        (s.Exposed ∨ s.Releases line i) := by
    intro v word body hgoes h
    obtain ⟨hconditions, hs⟩ := exposed_visitContent
      (fun fault hfault => hgoes fault (by rw [hfault]; rfl)) h
    exact ⟨hconditions, .inl hs⟩
  obtain ⟨text, form⟩ := line
  cases form with
  | blank => exact ⟨rfl, .inl h⟩
  | toggle t => exact ⟨rfl, .inl h⟩
  | round argument => exact ⟨rfl, .inl h⟩
  | plot kind => exact ⟨rfl, .inl h⟩
  | branch word rest => exact hcontent _ (some word) rest hgoes h
  | content => exact hcontent _ none text hgoes h
  | loop word argument =>
    have hv : (s.visit true ⟨text, .loop word argument⟩ i).calculate = true := rfl
    cases word with
    | opening =>
      obtain ⟨hconditions, hs⟩ := exposed_enterLoop hv h
      exact ⟨hconditions, .inl hs⟩
    | leave =>
      obtain ⟨hconditions, hs⟩ := exposed_leaveLoop hv h
      exact ⟨hconditions, .inl hs⟩
    | next =>
      obtain ⟨hconditions, hs⟩ := exposed_continueLoop hv h
      exact ⟨hconditions, .inl hs⟩
    | closing =>
      obtain ⟨hconditions, hs | ⟨hpending, htaken, hcloses⟩⟩ := exposed_closeLoop hv h
      · exact ⟨hconditions, .inl hs⟩
      · exact ⟨hconditions, .inr ⟨⟨argument, rfl⟩, hpending, htaken, hcloses⟩⟩

/-- **Where an exposed condition comes from.**  If no condition was exposed at first, then one
that is exposed later was released on the way, and the groups are as they were then. -/
theorem Reaches.released {lines : Array Line} {i j : Nat} {s t : Pass σ ρ}
    (hr : Reaches true lines i s j t) (hs : ¬s.Exposed) (ht : t.Exposed) :
    ∃ k u line, Reaches true lines i s k u ∧ lines[k]? = some line ∧ u.Releases line k ∧
      Reaches true lines k u j t ∧ t.conditions = u.conditions := by
  induction hr with
  | here => exact absurd ht hs
  | @onward j' _ t' _ hreaches htick ih =>
    obtain ⟨line, hl, -, hfollow⟩ := tick_go htick
    obtain ⟨-, hloops, hconditions⟩ := follow_go hfollow
    have hstep := exposed_step (follow_go_inputs hfollow).2
      (ht.congr hconditions.symm hloops.symm)
    obtain ⟨hsame, hbefore | hreleases⟩ := hstep
    · obtain ⟨k, u, line', hu, hk, hreleases, honward, heq⟩ := ih hbefore
      exact ⟨k, u, line', hu, hk, hreleases, honward.onward htick,
        hconditions.trans (hsame.trans heq)⟩
    · exact ⟨j', t', line, hreaches, hl, hreleases, .single htick, hconditions.trans hsame⟩

/-- In a well-nested sheet, no condition is ever exposed. -/
theorem not_exposed_of_wellNested {lines : Array Line} {i j : Nat} {s t : Pass σ ρ}
    (hn : Sheet.WellNested lines) (h : BalancedAt true lines i s)
    (hr : Reaches true lines i s j t) : ¬t.Exposed := by
  intro hexposed
  obtain ⟨hpending, hlive⟩ := exposed_iff.mp hexposed
  obtain ⟨around, -, hb⟩ := hr.balanced hn h
  rw [isLive_eq hb.sound] at hlive
  rw [hb.fits.pending_eq_false hlive] at hpending
  cases hpending

/-! ### What lines do to the groups -/

omit [Plotter ρ σ] in
/-- A line without a branch word leaves the groups as they are, unless it settles a condition
that is exposed. -/
theorem content_of_unexposed {v : Visit} (hv : v.calculate = true) {stopped : Bool}
    {body : List Char} {c : Conditions} {p : Page σ ρ}
    (h : ¬(c.pending = true ∧ c.isTaken = true ∧ stopped = false)) :
    (p.content v stopped none body c).2.1 = c := by
  unfold Page.content
  split
  · rfl
  next hlive =>
  have hpending : c.pending = false := by
    rw [hv, Bool.true_and, Bool.not_eq_true, Bool.not_eq_false', Bool.and_eq_true,
      Bool.not_eq_true'] at hlive
    rcases hp : c.pending with _ | _
    · rfl
    · exact absurd ⟨hp, hlive⟩ h
  dsimp only
  rw [Page.showLine]
  rcases p.showSegments v none body with ⟨e | value, q⟩
  · rfl
  · show (Page.settle v.calculate value c).2 = c
    unfold Page.settle
    rw [hpending]
    rfl

omit [Plotter ρ σ] in
/-- A line without a branch word settles a condition that is exposed by its own value. -/
theorem content_of_exposed {v : Visit} (hv : v.calculate = true) {body : List Char}
    {c : Conditions} {p : Page σ ρ} (hpending : c.pending = true) (htaken : c.isTaken = true) :
    (p.content v false none body c).2.1 =
      match (p.showSegments v none body).1 with
      | .ok (some value) => (c.judge value).2
      | .ok none => c.reject
      | .error _ => c := by
  unfold Page.content
  rw [hv, htaken, Page.showLine.eq_def]
  rcases p.showSegments v none body with ⟨e | value, q⟩
  · rfl
  · show (Page.settle v.calculate value c).2 = _
    rw [hv]
    rcases value with _ | value
    · rw [Page.settle_none hpending]
    · rw [Page.settle_some hpending]

omit [MathEngine σ] [Plotter ρ σ] in
/-- `#continue` leaves the groups as they are, unless it goes back. -/
theorem conditions_continueLoop (v : Visit) (s : Pass σ ρ) :
    (s.continueLoop v).2.conditions = s.conditions ∨
      ∃ next, (s.continueLoop v).1 = .ok (.jump next) := by
  rw [continueLoop]
  split
  · exact .inl rfl
  split
  · dsimp only
    rw [Loops.advance]
    split
    · exact .inl rfl
    split
    · exact .inl rfl
    split
    · exact .inr ⟨_, rfl⟩
    · exact .inl rfl
  · exact .inl rfl

/-- Apart from branch words and content, only a `#continue` that goes back changes the
groups. -/
theorem conditions_step {line : Line} (hbranch : ∀ word rest, line.form ≠ .branch word rest)
    (hcontent : line.form ≠ .content) (i : Nat) (s : Pass σ ρ) :
    (s.step true line i).2.conditions = s.conditions ∨
      ∃ argument next, line.form = .loop .next argument ∧
        (s.step true line i).1 = .ok (.jump next) := by
  obtain ⟨text, form⟩ := line
  cases form with
  | branch word rest => exact absurd rfl (hbranch word rest)
  | content => exact absurd rfl hcontent
  | loop word argument =>
    cases word with
    | opening =>
      exact .inl (conditions_enterLoop (s.visit true ⟨text, .loop .opening argument⟩ i) i
        argument s)
    | closing =>
      refine .inl ?_
      show (s.closeLoop _).2.conditions = _
      rw [closeLoop]
      split
      · rfl
      split
      · rfl
      · rfl
    | leave =>
      refine .inl ?_
      show (s.leaveLoop _).2.conditions = _
      rw [leaveLoop]
      split
      · rfl
      split
      · split
        · rfl
        · rfl
      · rfl
    | next =>
      rcases s.conditions_continueLoop (s.visit true ⟨text, .loop .next argument⟩ i) with
        h | ⟨next, h⟩
      · exact .inl h
      · exact .inr ⟨argument, next, rfl, h⟩
  | _ => exact .inl rfl

end Pass

namespace Workbench

section

variable [MathEngine σ] [Plotter ρ σ]

/-- **What a line does to the groups**, at every place of every calculating pass, with any
engine.

* A blank line leaves them as they are, and so does a line with content if no condition is
  exposed; such a line forgets the label of the last branch word.
* A line with content settles a condition that is exposed: by the value of its last expression,
  and as not taken if it has none.
* Apart from branch words and content, only a `#continue` that goes back changes the groups.
* A condition that is exposed was released before, by a `#loop` that closed the stopped block
  around it, and the groups are as they were then.
* In a well-nested sheet, no condition is ever exposed. -/
theorem waiting_condition_settled (source : String) (inputs : List String) (w : Workbench σ ρ)
    {i : Nat} {s : Pass σ ρ} {line : Line} (hs : w.ComesTo source true inputs i s)
    (hl : (Sheet.lines source)[i]? = some line) :
    let before := s.conditions
    let unlabelled : Conditions := { before with label := none }
    let after := (s.step true line i).2.conditions
    (line.form = .blank → after = before) ∧
    (line.form = .content → ¬s.Exposed → after = unlabelled) ∧
    (line.form = .content → s.Exposed → after =
      match (s.page.showSegments (s.visit true line i) none line.chars).1 with
      | .ok (some value) => (unlabelled.judge value).2
      | .ok none => unlabelled.reject
      | .error _ => unlabelled) ∧
    ((∀ word rest, line.form ≠ .branch word rest) → line.form ≠ .content → after = before ∨
      ∃ argument next, line.form = .loop .next argument ∧
        (s.step true line i).1 = .ok (.jump next)) ∧
    (s.Exposed → ∃ k u line', w.ComesTo source true inputs k u ∧
      (Sheet.lines source)[k]? = some line' ∧ u.Releases line' k ∧
      Pass.Reaches true (Sheet.lines source) k u i s ∧ before = u.conditions) ∧
    (Sheet.WellNested (Sheet.lines source) → ¬s.Exposed) := by
  obtain ⟨text, form⟩ := line
  refine ⟨?_, ?_, ?_, ?_, ?_, ?_⟩
  · rintro rfl
    rfl
  · rintro rfl hexposed
    exact Pass.content_of_unexposed rfl hexposed
  · rintro rfl ⟨hpending, htaken, hrun⟩
    rw [Pass.step_content, hrun]
    exact Pass.content_of_exposed rfl hpending htaken
  · intro hbranch hcontent
    exact Pass.conditions_step hbranch hcontent i s
  · intro hexposed
    have hstart : ¬(w.startPass true inputs).Exposed := by
      rintro ⟨hpending, -⟩
      cases hpending
    exact Pass.Reaches.released hs hstart hexposed
  · intro hn
    have hstart : Pass.BalancedAt true (Sheet.lines source) 0 (w.startPass true inputs) :=
      ⟨[], rfl, Pass.balanced_start true inputs _ w⟩
    exact Pass.not_exposed_of_wellNested hn hstart hs

end

/-- A sheet in which the `#loop` of a stopped block stands inside the group. -/
def lateEnd : String :=
  "#repeat 0\n#if 1\n#loop\n'a'\n'b'"

/-- At the first text of `lateEnd` the condition is exposed, because the `#loop` before it
released the condition. -/
theorem waiting_condition_settled_lateEnd :
    ∃ s, fresh.ComesTo lateEnd true [] 3 s ∧
      (Sheet.lines lateEnd)[3]? = some ⟨"'a'".toList, .content⟩ ∧ s.Exposed ∧
      ∃ k u line, fresh.ComesTo lateEnd true [] k u ∧
        (Sheet.lines lateEnd)[k]? = some line ∧ u.Releases line k := by
  have hplace : ∃ p ∈ (Pass.after true (Sheet.lines lateEnd) 3 0
      (fresh.startPass true [])).place?, p.1 = 3 ∧
      (Sheet.lines lateEnd)[3]? = some ⟨"'a'".toList, .content⟩ ∧
      p.2.conditions.pending = true ∧ p.2.conditions.isTaken = true ∧
      p.2.loops.isStopped = false := by
    decide +kernel
  obtain ⟨⟨i, s⟩, hp, rfl, hl, hexposed⟩ := hplace
  have hs : fresh.ComesTo lateEnd true [] 3 s := Pass.reaches_of_after hp
  obtain ⟨k, u, line, hu, hk, hreleases, -⟩ :=
    (waiting_condition_settled lateEnd [] fresh hs hl).2.2.2.2.1 hexposed
  exact ⟨s, hs, hl, hexposed, k, u, line, hu, hk, hreleases⟩

/-- The first text of `lateEnd` settles the condition as not taken, so the second one is
not shown. -/
theorem text_settles_condition :
    ∃ s, fresh.ComesTo lateEnd true [] 3 s ∧
      (Sheet.lines lateEnd)[3]? = some ⟨"'a'".toList, .content⟩ ∧
      s.conditions.branches = [⟨true, .tested⟩, ⟨true, .root⟩] ∧
      (s.step true ⟨"'a'".toList, .content⟩ 3).2.conditions.branches =
        [⟨false, .tested⟩, ⟨true, .root⟩] ∧
      s.isLive = true ∧ (s.step true ⟨"'a'".toList, .content⟩ 3).2.isLive = false := by
  have hplace : ∃ p ∈ (Pass.after true (Sheet.lines lateEnd) 3 0
      (fresh.startPass true [])).place?, p.1 = 3 ∧
      (Sheet.lines lateEnd)[3]? = some ⟨"'a'".toList, .content⟩ ∧
      p.2.conditions.branches = [⟨true, .tested⟩, ⟨true, .root⟩] ∧
      (p.2.step true ⟨"'a'".toList, .content⟩ 3).2.conditions.branches =
        [⟨false, .tested⟩, ⟨true, .root⟩] ∧
      p.2.isLive = true ∧ (p.2.step true ⟨"'a'".toList, .content⟩ 3).2.isLive = false := by
    decide +kernel
  obtain ⟨⟨i, s⟩, hp, rfl, h⟩ := hplace
  exact ⟨s, Pass.reaches_of_after hp, h⟩

end Workbench

end Worksheet
