/-
Well-nested sheets stay balanced.

In a well-nested sheet, every step keeps the open branches and blocks of a pass fitting
to the lines around its position (`Fits`), whatever becomes of the conditions, counts and
expressions.  So no directive is ever met with blocks that it does not fit, and nothing
is left open behind the last line.

* `Pass.Balanced` — the invariant of a pass, given the blocks around its position;
* `Pass.balanced_step` — what one step makes of it;
* `Pass.Excused` — the faults of structure that are left in such a sheet;
* `Workbench.wellNested_pass_balanced` — what follows for a whole pass.
-/
import Worksheet.Proofs.Visits

namespace Worksheet

/-- A loop word that neither ends a block, nor leaves it, nor goes on with it opens one. -/
theorem LineForm.opening_of_ne {form : LineForm}
    (hclosing : ∀ argument, form ≠ .loop .closing argument)
    (hleave : ∀ argument, form ≠ .loop .leave argument)
    (hnext : ∀ argument, form ≠ .loop .next argument) (word : LoopWord) (argument : List Char)
    (hf : form = .loop word argument) : word = .opening := by
  cases word with
  | opening => rfl
  | closing => exact absurd hf (hclosing argument)
  | leave => exact absurd hf (hleave argument)
  | next => exact absurd hf (hnext argument)

namespace Pass

variable {σ ρ : Type}

/-- The open branches and blocks of a pass fit the blocks around its position. -/
structure Balanced (calculate : Bool) (around : List Opener) (s : Pass σ ρ) : Prop where
  sound : s.conditions.Sound
  fits : Fits calculate s.conditions.pending around s.conditions.branches s.loops.blocks
  previewed : calculate = false → s.conditions.pending = false

variable {calculate : Bool} {around after : List Opener} {s t : Pass σ ρ}

theorem Balanced.congr (h : Balanced calculate around s) (hloops : t.loops = s.loops)
    (hconditions : t.conditions = s.conditions) : Balanced calculate around t := by
  obtain ⟨hs, hf, hp⟩ := h
  constructor
  · rw [hconditions]
    exact hs
  · rw [hconditions, hloops]
    exact hf
  · rw [hconditions]
    exact hp

theorem balanced_start (calculate : Bool) (inputs : List String) (engine : σ)
    (w : Workbench σ ρ) : Balanced calculate [] (Pass.start inputs engine w) where
  sound := Conditions.sound_initial
  fits := .root
  previewed := fun _ => rfl

/-! ### What a step makes of the invariant -/

/-- What a line that leads to the next one makes of the invariant: the pass ends, or is
balanced again. -/
def Keeps (calculate : Bool) (after : List Opener) (r : Except Fault Unit × Pass σ ρ) : Prop :=
  (∃ fault, r.1 = .error fault ∧ fault.isFatal = true) ∨ Balanced calculate after r.2

/-- The faults of structure that a well-nested sheet can have: a condition without an
expression, and a `#continue` that no loop is around. -/
def Excused (around : List Opener) (form : LineForm) (cause : StructureError) : Prop :=
  cause = .emptyCondition ∨
    cause = .continueWithoutRepeat ∧ (∃ argument, form = .loop .next argument) ∧
      ∀ line, .loop line ∉ around

/-- What a step makes of the invariant, given the blocks around its line and those after
it.  Going back leads to the body of a loop around the line. -/
def Advances (calculate : Bool) (form : LineForm) (around after : List Opener)
    (r : Except Fault Flow × Pass σ ρ) : Prop :=
  match r.1 with
  | .ok .next => Balanced calculate after r.2
  | .ok (.jump next) =>
    ∃ line outer, next = line + 1 ∧ .loop line :: outer <:+ around ∧
      Balanced calculate (.loop line :: outer) r.2
  | .ok .stop => True
  | .error fault =>
    (∀ cause, fault = .structural cause → Excused around form cause) ∧
      (fault.isFatal = true ∨ Balanced calculate after r.2)

theorem Keeps.advances {form : LineForm} {r : Except Fault Unit × Pass σ ρ}
    (h : Keeps calculate after r)
    (hcause : ∀ cause, r.1 = .error (.structural cause) → cause = .emptyCondition) :
    Advances calculate form around after (r.1.map fun _ => .next, r.2) := by
  have hexcused : ∀ fault, r.1 = .error fault →
      ∀ cause, fault = .structural cause → Excused around form cause := by
    rintro fault hr cause rfl
    exact .inl (hcause cause hr)
  rcases h with ⟨fault, hr, hfatal⟩ | h
  · rw [hr]
    exact ⟨hexcused fault hr, .inl hfatal⟩
  · rcases r with ⟨fault | _, t⟩
    · exact ⟨hexcused fault rfl, .inr h⟩
    · exact h

/-- A block that runs again is stopped no less than the blocks around it. -/
theorem stops_again {f g : Repetition} {blocks : List Repetition} (hg : f.again? = some g)
    (hstops : stopped blocks = true → f.isStopped = true) :
    stopped blocks = true → g.isStopped = true := by
  intro h
  have hf : f.remaining = 0 := by simpa [Repetition.isStopped] using hstops h
  obtain ⟨-, -, -, hrem, -⟩ := Loops.again?_eq_some hg
  omega

/-- `#loop` meets the block of its own loop, or none where that loop was passed over. -/
theorem balanced_closeLoop {v : Visit} {form : LineForm} {line : Nat}
    (h : Balanced v.calculate (.loop line :: after) s) :
    Advances v.calculate form (.loop line :: after) after (s.closeLoop v) := by
  obtain ⟨conditions, ⟨blocks, count⟩, page⟩ := s
  obtain ⟨hsound, hfits, hpreviewed⟩ := h
  rw [closeLoop]
  dsimp only at hsound hfits hpreviewed ⊢
  rw [Conditions.isTaken_eq hsound]
  generalize hb : conditions.branches = branches at hfits ⊢
  generalize hp : conditions.pending = pending at hfits hpreviewed
  cases hfits with
  | @running _ _ _ f blocks hv houter htaken hstops hgroups =>
    -- the groups inside the loop are closed, so `#loop` is at the depth of its block
    rw [if_neg (by simp [hv]), if_pos htaken]
    have hdepth : ¬f.groups ≠ conditions.depth := by
      rw [← hb, Conditions.length_branches] at hgroups
      omega
    rw [Loops.close]
    dsimp only
    rw [if_neg hdepth]
    rcases hg : f.again? with _ | g
    · refine ⟨hsound, ?_, by simp [hv]⟩
      dsimp only
      rw [hb, hp]
      exact houter
    · obtain ⟨hstart, hsame, -⟩ := Loops.again?_eq_some hg
      refine ⟨f.start, after, by rw [← hstart]; rfl, List.suffix_rfl, hsound, ?_, by simp [hv]⟩
      dsimp only
      rw [hb, hp, ← hstart]
      exact .running hv houter htaken (stops_again hg hstops) (by omega)
  -- no block was opened for the loop, and where its groups are not taken `#loop` is ignored
  | passed _ houter huntaken =>
    have hnext : ∀ page : Page σ ρ,
        Balanced v.calculate after ⟨conditions, ⟨blocks, count⟩, page⟩ := by
      intro page
      rw [← hp] at hpreviewed
      refine ⟨hsound, ?_, hpreviewed⟩
      dsimp only
      rw [hb, hp]
      exact houter
    split
    · exact hnext _
    · next hv =>
      rw [huntaken (by simpa using hv), if_neg (by simp)]
      exact hnext _

/-- `#break` keeps the line's blocks as they are and stops the innermost one. -/
theorem balanced_leaveLoop {v : Visit} {form : LineForm} (h : Balanced v.calculate around s) :
    Advances v.calculate form around around (s.leaveLoop v) := by
  rw [leaveLoop]
  split
  · exact h.congr rfl rfl
  split
  · split
    · next loops hleave =>
      obtain ⟨conditions, ⟨blocks, count⟩, page⟩ := s
      obtain ⟨hsound, hfits, hpreviewed⟩ := h
      cases blocks with
      | nil => cases hleave
      | cons f rest =>
        cases hleave
        exact ⟨hsound, hfits.stop, hpreviewed⟩
    · trivial
  · exact h

/-- `#continue` closes the groups inside the innermost loop and goes back to the body of
that loop, or stops its block. -/
theorem balanced_continueLoop {v : Visit} {argument : List Char}
    (h : Balanced v.calculate around s) :
    Advances v.calculate (.loop .next argument) around around (s.continueLoop v) := by
  rw [continueLoop]
  split
  · exact h.congr rfl rfl
  next hv =>
  have hv : v.calculate = true := by simpa using hv
  split
  · next hlive =>
    rw [isLive_eq h.sound] at hlive
    have htaken := (live_eq_true_iff.mp hlive).1
    obtain ⟨conditions, ⟨blocks, count⟩, page⟩ := s
    obtain ⟨hsound, hfits, hpreviewed⟩ := h
    dsimp only at hsound hfits hpreviewed htaken hlive ⊢
    rw [hv] at hfits ⊢
    -- without a block there is no loop around the line, since the groups are taken
    cases blocks with
    | nil =>
      refine ⟨?_, .inr ⟨hsound, hfits, by simp⟩⟩
      intro cause hcause
      cases hcause
      exact .inr ⟨rfl, ⟨argument, rfl⟩, hfits.no_loop htaken⟩
    | cons f rest =>
      -- the innermost block belongs to the innermost loop, and groups are closed up to it
      obtain ⟨outer, home, hloop, hhome, houter, hall, hstops, hgroups⟩ :=
        hfits.innermost htaken
      have hdepth : ¬conditions.depth < f.groups := by
        have hle := hhome.length_le
        rw [Conditions.length_branches] at hle
        omega
      rw [Loops.advance]
      dsimp only
      rw [if_neg hdepth]
      rcases hg : f.again? with _ | g
      · exact ⟨hsound, hfits.stop, by simp⟩
      · obtain ⟨hstart, hsame, -⟩ := Loops.again?_eq_some hg
        refine ⟨f.start, outer, by rw [← hstart]; rfl, hloop, hsound.closeTo _, ?_, by simp⟩
        dsimp only
        rw [Conditions.branches_closeTo hhome (by omega), ← hstart]
        exact .running rfl houter hall (stops_again hg hstops) (by omega)
  · exact h

variable [MathEngine σ]

/-- `#repeat` keeps a pass balanced: it opens a block exactly where all branches are
taken, whatever becomes of its count. -/
theorem balanced_enterLoop {v : Visit} {index : Nat} {argument : List Char}
    (h : Balanced v.calculate around s) :
    Keeps v.calculate (.loop index :: around) (s.enterLoop v index argument) := by
  have hpassed : ∀ page : Page σ ρ,
      (v.calculate = true → s.conditions.branches.all Branch.taken = false) →
      Balanced v.calculate (.loop index :: around) { s with page } := by
    intro page huntaken
    exact ⟨h.sound, .passed index h.fits huntaken, h.previewed⟩
  -- inside a stopped loop the new block has to be stopped too
  have hopened : ∀ (page : Page σ ρ) (count : Option Nat), v.calculate = true →
      s.conditions.branches.all Branch.taken = true →
      (stopped s.loops.blocks = true → count = some 0) →
      Balanced v.calculate (.loop index :: around)
        { s with loops := s.loops.enter index count s.conditions.depth, page } := by
    intro page count hv htaken hstops
    refine ⟨h.sound, ?_, h.previewed⟩
    refine .running (f := .first index (count.getD s.loops.defaultCount) s.conditions.depth)
      hv h.fits htaken ?_ rfl
    intro hstopped
    rw [hstops hstopped]
    rfl
  -- a preview, untaken branches, a stopped loop, and then the count: none, good or bad
  rw [enterLoop]
  dsimp only
  split
  · next hv => exact .inr (hpassed _ fun hc => by simp [hc] at hv)
  next hv =>
  have hv : v.calculate = true := by simpa using hv
  rw [Conditions.isTaken_eq h.sound]
  split
  · next htaken => exact .inr (hpassed s.page fun _ => by simpa using htaken)
  next htaken =>
  have htaken : s.conditions.branches.all Branch.taken = true := by simpa using htaken
  rw [isStopped_eq]
  split
  · exact .inr (hopened _ _ hv htaken fun _ => rfl)
  next hruns =>
  split
  · exact .inr (hopened _ _ hv htaken fun hstopped => absurd hstopped hruns)
  split
  · exact .inr (hopened _ _ hv htaken fun hstopped => absurd hstopped hruns)
  · next fault page _ =>
    rcases hfatal : fault.isFatal with _ | _
    -- a bad count is reported, and the loop is opened all the same
    · exact .inr (hopened _ _ hv htaken fun _ => rfl)
    · exact .inl ⟨fault, rfl, hfatal⟩

/-! ### Lines with a branch word -/

/-- A branch word that fits the blocks around it can be entered.  The groups then fit the
blocks after it, and if the new branch waits for its value, it counts as taken until it is
settled. -/
theorem fits_enter {index : Nat} {word : BranchWord} {rest : List Char} {c : Conditions}
    {pending : Bool} {blocks : List Repetition}
    (hf : Fits calculate pending around c.branches blocks)
    (hm : Opener.meet index (.branch word rest) around = some after) :
    ∃ d, c.enter (some word) = .ok d ∧ Fits calculate false after d.branches blocks ∧
      (d.pending = true →
        ∃ outer, after = .group false :: outer ∧ d.current = ⟨true, .tested⟩) := by
  cases word with
  | opening =>
    cases hm
    refine ⟨_, rfl, .group false true hf.settle (by simp), ?_⟩
    intro _
    exact ⟨around, rfl, rfl⟩
  | alternative =>
    obtain ⟨outer, rfl, rfl⟩ := Opener.meet_alternative hm
    obtain ⟨hkind, houter⟩ := hf.of_group
    have hfits := Conditions.misplaced_of_tested .alternative houter.ne_nil hkind
    refine ⟨_, Conditions.enter_of_fits hfits, ?_, ?_⟩
    · exact hf.change false true false (by simp)
    · intro _
      exact ⟨outer, rfl, rfl⟩
  | otherwise =>
    obtain ⟨outer, rfl, rfl⟩ := Opener.meet_otherwise hm
    obtain ⟨hkind, houter⟩ := hf.of_group
    have hfits := Conditions.misplaced_of_tested .otherwise houter.ne_nil hkind
    refine ⟨_, Conditions.enter_of_fits hfits, ?_, ?_⟩
    · exact hf.change true (!c.matched) false (by simp)
    · intro hp
      cases hp
  | closing =>
    obtain ⟨last, rfl⟩ := Opener.meet_closeGroup hm
    obtain ⟨-, houter⟩ := hf.of_group
    refine ⟨_, Conditions.enter_of_fits (Conditions.misplaced_closing houter.ne_nil), ?_, ?_⟩
    · show Fits calculate false after c.pop.branches blocks
      rw [Conditions.branches_pop houter.ne_nil]
      exact houter
    · intro hp
      cases hp

/-- A line with a branch word that fits keeps a pass balanced. -/
theorem balanced_branch {v : Visit} {index : Nat} {word : BranchWord} {rest : List Char}
    (h : Balanced v.calculate around s)
    (hm : Opener.meet index (.branch word rest) around = some after) :
    Keeps v.calculate after (s.visitContent v (some word) rest) := by
  obtain ⟨d, henter, hfits, htested⟩ := fits_enter h.fits hm
  have hsound : d.Sound := h.sound.enter henter
  rw [visitContent, henter]
  dsimp only
  -- the pass ends, the line is passed over, or its condition is settled
  rcases s.page.content_conditions v s.loops.isStopped (some word) rest d with
    hfatal | ⟨hd, hdead⟩ | ⟨hp, -, hsettled⟩
  · exact .inl hfatal
  · refine .inr ?_
    constructor
    · rw [hd]
      exact hsound
    · rw [hd]
      dsimp only
      rcases hp : d.pending with _ | _
      · exact hfits
      · -- the line is not live, but its own branch counts as taken: so it is what lies
        -- around the group that is not live
        obtain ⟨outer, rfl, hcurrent⟩ := htested hp
        have htaken := (hdead hp).2
        rw [Conditions.isTaken_eq hsound, isStopped_eq] at htaken
        rw [show d.branches = d.current :: d.enclosing from rfl, hcurrent] at hfits htaken ⊢
        refine hfits.change false true true ?_
        intro _
        rw [List.all_cons, Bool.true_and] at htaken
        exact htaken
    · intro hv
      rw [hd]
      rcases hp : d.pending with _ | _
      · rfl
      · rw [(hdead hp).1] at hv
        cases hv
  · refine .inr ?_
    obtain ⟨outer, rfl, hcurrent⟩ := htested hp
    obtain ⟨taken, hbranches⟩ := hsettled.branches
    constructor
    · exact hsettled.sound hsound
    · dsimp only
      rw [hsettled.pending, hbranches, hcurrent]
      rw [show d.branches = d.current :: d.enclosing from rfl] at hfits
      exact hfits.change false taken false (by simp)
    · intro _
      exact hsettled.pending

/-- A line with content keeps a pass balanced. -/
theorem balanced_content {v : Visit} {body : List Char} (h : Balanced v.calculate around s) :
    Keeps v.calculate around (s.visitContent v none body) := by
  rw [visitContent, show s.conditions.enter none = .ok { s.conditions with label := none } from rfl]
  dsimp only
  have hsound : ({ s.conditions with label := none } : Conditions).Sound := h.sound
  rcases s.page.content_conditions v s.loops.isStopped none body
      { s.conditions with label := none } with hfatal | ⟨hd, -⟩ | ⟨hp, hlive, -⟩
  · exact .inl hfatal
  · refine .inr ?_
    constructor
    · rw [hd]
      exact hsound
    · rw [hd]
      exact h.fits
    · rw [hd]
      exact h.previewed
  · -- no condition waits in a preview, nor where lines are shown
    exfalso
    rcases hv : v.calculate with _ | _
    · rw [h.previewed hv] at hp
      cases hp
    · have hshown := hlive hv
      rw [Conditions.isTaken_eq hsound, isStopped_eq] at hshown
      rw [h.fits.pending_eq_false hshown] at hp
      cases hp

/-! ### One step -/

theorem enterLoop_structural {v : Visit} {index : Nat} {argument : List Char}
    (cause : StructureError) :
    (s.enterLoop v index argument).1 ≠ .error (.structural cause) := by
  rw [enterLoop]
  dsimp only
  split
  · exact Page.previewRepeat_structural cause
  split
  · simp
  split
  · simp
  split
  · simp
  have hcount := Page.iterationCount_structural argument s.page cause
  split
  · simp
  · next fault _ hf =>
    rw [hf] at hcount
    intro h
    exact hcount (congrArg Except.error (Except.error.inj h))

variable [Plotter ρ σ]

/-- A line that leads to the next one keeps a pass balanced. -/
theorem balanced_visitPlain {v : Visit} {index : Nat} {form : LineForm}
    (h : Balanced v.calculate around s) (hm : Opener.meet index form around = some after)
    (hform : ∀ word argument, form = .loop word argument → word = .opening) :
    Keeps v.calculate after (s.visitPlain v index form) := by
  have hpage : ∀ r : Except Fault Unit × Page σ ρ, Balanced v.calculate around (s.onPage r).2 :=
    fun r => h.congr rfl rfl
  cases form with
  | branch word rest => exact balanced_branch h hm
  | loop word argument =>
    obtain rfl := hform word argument rfl
    cases hm
    exact balanced_enterLoop h
  | content =>
    cases hm
    exact balanced_content h
  | _ =>
    cases hm
    exact .inr (hpage _)

/-- In a balanced pass, the only fault of structure in a line that leads to the next one
is a condition without an expression. -/
theorem visitPlain_structural {v : Visit} {index : Nat} {form : LineForm}
    (h : Balanced v.calculate around s) (hm : Opener.meet index form around = some after)
    {cause : StructureError} (hcause : (s.visitPlain v index form).1 = .error (.structural cause)) :
    cause = .emptyCondition := by
  cases form with
  | branch word rest =>
    obtain ⟨d, henter, -⟩ := fits_enter h.fits hm
    simp only [visitPlain, visitContent, henter] at hcause
    exact (Page.content_structural hcause).1
  | content =>
    simp only [visitPlain, visitContent, Conditions.enter] at hcause
    exact (Page.content_structural hcause).1
  | loop word argument => exact absurd hcause (enterLoop_structural cause)
  | round argument => exact absurd hcause (Page.round_structural cause)
  | plot kind => exact absurd hcause (Page.plot_structural cause)
  | blank => cases hcause
  | toggle t => cases hcause

/-- **Every step keeps a pass balanced.**  It leads to the next line, or back to the body
of a loop around its own, with branches and blocks that fit there. -/
theorem balanced_step {line : Line} {index : Nat} (h : Balanced calculate around s)
    (hm : Opener.meet index line.form around = some after) :
    Advances calculate line.form around after (s.step calculate line index) := by
  have hv : (s.visit calculate line index).calculate = calculate := rfl
  rw [step]
  generalize s.visit calculate line index = v at hv ⊢
  subst hv
  dsimp only
  split
  · next argument hf =>
    rw [hf] at hm
    obtain ⟨start, rfl⟩ := Opener.meet_closeLoop hm
    exact balanced_closeLoop h
  · next argument hf =>
    rw [hf] at hm
    cases hm
    exact balanced_leaveLoop h
  · next argument hf =>
    rw [hf] at hm ⊢
    cases hm
    exact balanced_continueLoop h
  · next hclosing hleave hnext =>
    have hloop := LineForm.opening_of_ne hclosing hleave hnext
    exact (balanced_visitPlain h hm hloop).advances fun cause hc => visitPlain_structural h hm hc

/-! ### A whole pass -/

variable {lines : Array Line} {i j : Nat}

/-- A pass is balanced at a position: the lines before it fit, and its branches and blocks
fit the blocks around the position. -/
def BalancedAt (calculate : Bool) (lines : Array Line) (i : Nat) (s : Pass σ ρ) : Prop :=
  ∃ around, Sheet.around lines i = some around ∧ Balanced calculate around s

/-- One step leads from a balanced place to another one. -/
theorem balancedAt_tick (hn : Sheet.WellNested lines) (h : BalancedAt calculate lines i s)
    (ht : s.tick calculate lines i = .go j t) : BalancedAt calculate lines j t := by
  obtain ⟨line, hl, -, hfollow⟩ := tick_go ht
  obtain ⟨around, after, haround, hafter, hm⟩ := hn.meet hl
  obtain ⟨around', haround', hb⟩ := h
  rw [haround] at haround'
  cases haround'
  have hadv := balanced_step hb hm
  obtain ⟨hj, hloops, hconditions⟩ := follow_go hfollow
  -- what `follow` makes of the outcome is at most a report, which keeps blocks and branches
  generalize s.step calculate line i = r at hfollow hadv hj hloops hconditions
  rcases r with ⟨fault | (_ | next | _), u⟩
  · rcases hadv.2 with hfatal | hb'
    · simp only [follow, hfatal, if_true] at hfollow
      cases hfollow
    · rw [hj]
      exact ⟨after, hafter, hb'.congr hloops hconditions⟩
  · rw [hj]
    exact ⟨after, hafter, hadv.congr hloops hconditions⟩
  -- going back, the blocks around the body of the loop are those around it on the way in
  · obtain ⟨start, outer, rfl, hloop, hb'⟩ := hadv
    rw [hj]
    exact ⟨_, Sheet.around_bodyStart haround hloop, hb'.congr hloops hconditions⟩
  · cases hfollow

/-- Every place that a pass comes to from a balanced one is balanced. -/
theorem Reaches.balanced (hn : Sheet.WellNested lines) (h : BalancedAt calculate lines i s)
    (hr : Reaches calculate lines i s j t) : BalancedAt calculate lines j t := by
  induction hr with
  | here => exact h
  | onward _ ht ih => exact balancedAt_tick hn ih ht

omit [MathEngine σ] [Plotter ρ σ] in
/-- Behind the last line of a well-nested sheet, no group and no block is open. -/
theorem closed_at_end (hn : Sheet.WellNested lines) (h : BalancedAt calculate lines i s)
    (hi : lines[i]? = none) : s.conditions.depth = 0 ∧ s.loops.blocks = [] := by
  obtain ⟨around, haround, hb⟩ := h
  obtain rfl := hn.around_end haround hi
  have hfits := hb.fits
  generalize hbr : s.conditions.branches = branches at hfits
  generalize s.conditions.pending = pending at hfits
  generalize s.loops.blocks = blocks at hfits ⊢
  cases hfits
  have hlen := congrArg List.length hbr
  rw [Conditions.length_branches] at hlen
  refine ⟨?_, rfl⟩
  simpa using hlen

end Pass

namespace Workbench

variable {σ ρ : Type} [MathEngine σ] [Plotter ρ σ]

/-- **A well-nested sheet stays balanced**, calculated or previewed, with any engine.  The
faults of structure that a step can report are a condition without an expression and a
`#continue` that no loop is around.  A pass that moves past the last line has closed all
groups and blocks, and no report on an open block is added to its output. -/
theorem wellNested_pass_balanced (source : String) (calculate : Bool) (inputs : List String)
    (w : Workbench σ ρ) (hn : Sheet.WellNested (Sheet.lines source)) :
    (∀ i s line cause, w.ComesTo source calculate inputs i s →
      (Sheet.lines source)[i]? = some line →
      (s.step calculate line i).1 = .error (.structural cause) →
      ∃ around, Sheet.around (Sheet.lines source) i = some around ∧
        Pass.Excused around line.form cause) ∧
    (∀ s, (w.startPass calculate inputs).run calculate (Sheet.lines source) 0 = (.completed, s) →
      s.conditions.depth = 0 ∧ s.loops.blocks = []) ∧
    (w.pieces source calculate inputs).1 =
      (w.pieces source calculate inputs).2.page.output.toList := by
  have hstart : Pass.BalancedAt calculate (Sheet.lines source) 0 (w.startPass calculate inputs) :=
    ⟨[], rfl, Pass.balanced_start calculate inputs _ w⟩
  have hclosed : ∀ s, (w.startPass calculate inputs).run calculate (Sheet.lines source) 0 =
      (.completed, s) → s.conditions.depth = 0 ∧ s.loops.blocks = [] := by
    intro s hrun
    -- the run ends at a place that steps lead to, and balance holds there
    obtain ⟨j, t, hreach, hdone⟩ :=
      Pass.exists_reaches_done calculate (Sheet.lines source) 0 (w.startPass calculate inputs)
    rw [hrun] at hdone
    obtain ⟨hj, rfl⟩ := Pass.tick_completed hdone
    exact Pass.closed_at_end hn (hreach.balanced hn hstart) hj
  refine ⟨?_, hclosed, ?_⟩
  · intro i s line cause hs hl hcause
    obtain ⟨around, after, haround, -, hm⟩ := hn.meet hl
    obtain ⟨around', haround', hb⟩ := hs.balanced hn hstart
    rw [haround] at haround'
    cases haround'
    have hadv := Pass.balanced_step hb hm
    rw [Pass.Advances, hcause] at hadv
    exact ⟨around, haround, hadv.1 cause rfl⟩
  · rw [pieces]
    rw [show Pass.start inputs (w.preparedEngine calculate) w = w.startPass calculate inputs
      from rfl]
    rcases hr : (w.startPass calculate inputs).run calculate (Sheet.lines source) 0 with
      ⟨ending, s⟩
    dsimp only
    split
    · next hending =>
      subst hending
      obtain ⟨hdepth, hblocks⟩ := hclosed s hr
      simp [Pass.unclosed, hdepth, hblocks]
    · exact List.append_nil _

/-- A group around a `#continue`, inside a loop. -/
theorem wellNested_pass_balanced_continue :
    Sheet.WellNested (Sheet.lines "#repeat 2\n#if 1\n#continue\n#end if\n#loop") ∧
      ∀ s, (fresh.startPass true []).run true
          (Sheet.lines "#repeat 2\n#if 1\n#continue\n#end if\n#loop") 0 = (.completed, s) →
        s.conditions.depth = 0 ∧ s.loops.blocks = [] := by
  have hn : Sheet.WellNested (Sheet.lines "#repeat 2\n#if 1\n#continue\n#end if\n#loop") := by
    decide +kernel
  exact ⟨hn, (wellNested_pass_balanced _ true [] fresh hn).2.1⟩

end Workbench

end Worksheet
