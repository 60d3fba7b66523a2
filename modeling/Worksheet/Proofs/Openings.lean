/-
What opens and closes at a line.

Groups and blocks are opened and closed by the words of their own kind only, and a step
opens one at most.  This module says so in the form in which invariants of a pass use it:
how the open groups and the open blocks can change in a step, and under which guards.

* `Pass.GroupChange` — the open groups after a step, with `Pass.groups_step`;
* `Pass.depth_step`, `Pass.sound_step` — their number, and that they stay sound;
* `Pass.BlockChange` — the open blocks after a step, with `Pass.blocks_step`.
-/
import Worksheet.Proofs.Content
import Worksheet.Proofs.Trajectory

namespace Worksheet

/-! ### How a step changes the open groups -/

/-- Whether a line opens a group. -/
def LineForm.opensGroup : LineForm → Bool
  | .branch .opening _ => true
  | _ => false

namespace Conditions

theorem depth_pop_le (s : Conditions) : s.pop.depth ≤ s.depth := by
  unfold pop
  split
  · exact Nat.le_refl _
  · next outer rest hcons =>
    show rest.length ≤ s.enclosing.length
    rw [hcons, List.length_cons]
    omega

theorem depth_closeTo_le (depth : Nat) (s : Conditions) : (s.closeTo depth).depth ≤ s.depth := by
  have hpop : ∀ n (s : Conditions), (popTimes n s).depth ≤ s.depth := by
    intro n
    induction n with
    | zero => exact fun s => Nat.le_refl _
    | succ n ih => exact fun s => Nat.le_trans (ih s.pop) (depth_pop_le s)
  exact hpop (s.depth - depth) s

/-- Only `#if` opens a group. -/
theorem depth_move (word : BranchWord) (s : Conditions) :
    if word = .opening then (s.move word).depth = s.depth + 1
    else (s.move word).depth ≤ s.depth := by
  cases word with
  | opening => exact rfl
  | alternative => exact Nat.le_refl _
  | otherwise => exact Nat.le_refl _
  | closing => exact depth_pop_le s

theorem Settled.depth {c d : Conditions} (h : c.Settled d) : d.depth = c.depth := by
  rcases h with rfl | ⟨taken, rfl⟩
  · rfl
  · rfl

end Conditions

/-- A line that was entered leaves the groups as they are, or settles a condition. -/
theorem Page.content_settles {σ ρ : Type} [MathEngine σ] (v : Visit) (stopped : Bool)
    (word : Option BranchWord) (body : List Char) (c : Conditions) (p : Page σ ρ) :
    (p.content v stopped word body c).2.1 = c ∨
      c.Settled (p.content v stopped word body c).2.1 := by
  have hline : ∀ word, (p.showLine v word body c).2.1 = c ∨
      c.Settled (p.showLine v word body c).2.1 := by
    intro word
    rw [showLine]
    rcases p.showSegments v word body with ⟨e | value, q⟩
    · exact .inl rfl
    · rcases settle_conditions v.calculate value c with ⟨-, h⟩ | ⟨-, h⟩
      · exact .inl h
      · exact .inr h
  unfold content
  split
  · exact .inl rfl
  rcases word with _ | word
  · exact hline none
  · dsimp only
    split
    · rw [bareWord]
      split
      · exact .inr (.inr ⟨false, rfl⟩)
      · exact .inl rfl
    split
    · exact .inr (.inr ⟨false, rfl⟩)
    · exact hline (some word)

namespace Pass

/-- How the open groups change at a line. -/
inductive GroupChange (form : LineForm) (c : Conditions) : Conditions → Prop
  | stay (hform : form.opensGroup = false) : GroupChange form c c
  /-- A line with content, whatever becomes of its expressions. -/
  | content {d : Conditions} (hform : form = .content)
    (hsettled : d = { c with label := none } ∨
      ({ c with label := none } : Conditions).Settled d) : GroupChange form c d
  /-- A branch word that fits, whatever becomes of its condition. -/
  | branch {word : BranchWord} {rest : List Char} {d e : Conditions}
    (hform : form = .branch word rest) (henter : c.enter (some word) = .ok d)
    (hsettled : e = d ∨ d.Settled e) : GroupChange form c e
  /-- `#continue` closes the groups inside its loop. -/
  | unwind {argument : List Char} (depth : Nat) (hform : form = .loop .next argument) :
    GroupChange form c (c.closeTo depth)

variable {σ ρ : Type} [MathEngine σ]

theorem conditions_enterLoop (v : Visit) (index : Nat) (argument : List Char)
    (s : Pass σ ρ) : (s.enterLoop v index argument).2.conditions = s.conditions := by
  rw [enterLoop]
  dsimp only
  split
  · rfl
  split
  · rfl
  split
  · rfl
  split
  · rfl
  split
  · rfl
  · split <;> rfl

omit [MathEngine σ] in
theorem groups_continueLoop (argument : List Char) (v : Visit) (s : Pass σ ρ) :
    GroupChange (.loop .next argument) s.conditions (s.continueLoop v).2.conditions := by
  rw [continueLoop]
  split
  · exact .stay rfl
  split
  · show GroupChange _ _ (s.loops.advance s.conditions).2.2
    rw [Loops.advance]
    split
    · exact .stay rfl
    split
    · exact .stay rfl
    split
    · exact .unwind _ rfl
    · exact .stay rfl
  · exact .stay rfl

variable [Plotter ρ σ]

/-- Every step changes the open groups in one of these ways. -/
theorem groups_step (calculate : Bool) (line : Line) (index : Nat) (s : Pass σ ρ) :
    GroupChange line.form s.conditions (s.step calculate line index).2.conditions := by
  obtain ⟨text, form⟩ := line
  cases form with
  | content => exact .content rfl (Page.content_settles _ _ none text _ s.page)
  | branch word rest =>
    show GroupChange _ _ (s.visitContent (s.visit calculate _ index) (some word) rest).2.conditions
    rw [visitContent]
    rcases henter : s.conditions.enter (some word) with e | d
    · refine .stay ?_
      cases word with
      | opening => cases henter
      | _ => rfl
    · exact .branch rfl henter (Page.content_settles _ _ (some word) rest d s.page)
  | loop word argument =>
    cases word with
    | opening =>
      show GroupChange _ _ (s.enterLoop _ index argument).2.conditions
      rw [conditions_enterLoop]
      exact .stay rfl
    | closing =>
      show GroupChange _ _ (s.closeLoop _).2.conditions
      rw [closeLoop]
      split
      · exact .stay rfl
      · split <;> exact .stay rfl
    | leave =>
      show GroupChange _ _ (s.leaveLoop _).2.conditions
      rw [leaveLoop]
      split
      · exact .stay rfl
      split
      · split <;> exact .stay rfl
      · exact .stay rfl
    | next => exact groups_continueLoop argument _ s
  | _ => exact .stay rfl

/-- A step opens one group if its line is `#if`, and otherwise it opens none. -/
theorem depth_step (calculate : Bool) (line : Line) (index : Nat) (s : Pass σ ρ) :
    if line.form.opensGroup
    then (s.step calculate line index).2.conditions.depth = s.conditions.depth + 1
    else (s.step calculate line index).2.conditions.depth ≤ s.conditions.depth := by
  have hchange := groups_step calculate line index s
  generalize (s.step calculate line index).2.conditions = after at hchange ⊢
  cases hchange with
  | stay hform =>
    rw [hform]
    exact Nat.le_refl _
  | content hform hsettled =>
    rw [hform]
    rcases hsettled with rfl | hsettled
    · exact Nat.le_refl _
    · exact Nat.le_of_eq hsettled.depth
  | @branch word rest d _ hform henter hsettled =>
    have hdepth : after.depth = (s.conditions.move word).depth := by
      rw [Conditions.eq_of_enter henter] at hsettled
      rcases hsettled with rfl | hsettled
      · rfl
      · exact hsettled.depth
    have hmove := Conditions.depth_move word s.conditions
    rw [hform, hdepth]
    cases word with
    | opening => exact hmove
    | _ => exact hmove
  | unwind depth hform =>
    rw [hform]
    exact Conditions.depth_closeTo_le depth s.conditions

/-- Every step keeps the groups sound. -/
theorem sound_step (calculate : Bool) (line : Line) (index : Nat) {s : Pass σ ρ}
    (h : s.conditions.Sound) : (s.step calculate line index).2.conditions.Sound := by
  have hchange := groups_step calculate line index s
  generalize (s.step calculate line index).2.conditions = after at hchange ⊢
  cases hchange with
  | stay => exact h
  | content _ hsettled =>
    have hlabel : ({ s.conditions with label := none } : Conditions).Sound := h
    rcases hsettled with rfl | hsettled
    · exact hlabel
    · exact hsettled.sound hlabel
  | branch _ henter hsettled =>
    rcases hsettled with rfl | hsettled
    · exact h.enter henter
    · exact hsettled.sound (h.enter henter)
  | unwind depth => exact h.closeTo depth

/-- At every place of a pass, the groups are sound if they were at first. -/
theorem Reaches.sound {calculate : Bool} {lines : Array Line} {i j : Nat} {s t : Pass σ ρ}
    (hr : Reaches calculate lines i s j t) (h : s.conditions.Sound) : t.conditions.Sound := by
  refine hr.keeps (I := fun c _ => c.Sound) ?_ h
  intro k line u _ hu
  exact sound_step calculate line k hu

/-! ### How a step changes the open blocks -/

/-- How the open blocks change at a line, and under which guards. -/
inductive BlockChange (calculate : Bool) (form : LineForm) (index : Nat) (s : Pass σ ρ) :
    List Repetition → Prop
  | stay : BlockChange calculate form index s s.loops.blocks
  /-- `#repeat` opens a block for the groups that are open. -/
  | enter {argument : List Char} (count : Nat) (hform : form = .loop .opening argument) :
    BlockChange calculate form index s
      (.first index count s.conditions.depth :: s.loops.blocks)
  /-- `#loop` closes the innermost block, in taken branches of a calculated sheet only. -/
  | close {argument : List Char} {f : Repetition} {rest : List Repetition}
    (hform : form = .loop .closing argument) (hcalculate : calculate = true)
    (htaken : s.conditions.isTaken = true) (hblocks : s.loops.blocks = f :: rest) :
    BlockChange calculate form index s rest
  /-- `#break`, or `#continue` in the last iteration, stops the innermost block. -/
  | stop {f : Repetition} {rest : List Repetition} (hblocks : s.loops.blocks = f :: rest) :
    BlockChange calculate form index s (f.stop :: rest)
  /-- `#loop` or `#continue` begins a further iteration of the innermost block. -/
  | again {f g : Repetition} {rest : List Repetition} (hblocks : s.loops.blocks = f :: rest)
    (hagain : f.again? = some g) : BlockChange calculate form index s (g :: rest)

omit [MathEngine σ] [Plotter ρ σ] in
theorem blocks_closeLoop (index : Nat) (argument : List Char) (v : Visit) (s : Pass σ ρ) :
    BlockChange v.calculate (.loop .closing argument) index s
      (s.closeLoop v).2.loops.blocks := by
  rw [closeLoop]
  split
  · exact .stay
  next hv =>
  split
  · next htaken =>
    dsimp only
    rw [Loops.close]
    split
    · exact .stay
    · next f rest hb =>
      have hclosed : BlockChange v.calculate (.loop .closing argument) index s rest :=
        .close rfl (by simpa using hv) htaken hb
      split
      · split
        · exact hclosed
        · exact .stay
      split
      · next g hg => exact .again hb hg
      · exact hclosed
  · exact .stay

omit [MathEngine σ] [Plotter ρ σ] in
theorem blocks_leaveLoop (form : LineForm) (index : Nat) (v : Visit) (s : Pass σ ρ) :
    BlockChange v.calculate form index s (s.leaveLoop v).2.loops.blocks := by
  rw [leaveLoop]
  split
  · exact .stay
  split
  · split
    · next loops hleave =>
      rw [Loops.leave?] at hleave
      split at hleave
      · cases hleave
      · next f rest hb =>
        cases hleave
        exact .stop hb
    · exact .stay
  · exact .stay

omit [MathEngine σ] [Plotter ρ σ] in
theorem blocks_continueLoop (form : LineForm) (index : Nat) (v : Visit) (s : Pass σ ρ) :
    BlockChange v.calculate form index s (s.continueLoop v).2.loops.blocks := by
  rw [continueLoop]
  split
  · exact .stay
  split
  · dsimp only
    rw [Loops.advance]
    split
    · exact .stay
    · next f rest hb =>
      split
      · exact .stay
      split
      · next g hg => exact .again hb hg
      · exact .stop hb
  · exact .stay

omit [Plotter ρ σ] in
theorem blocks_enterLoop (index : Nat) (argument : List Char) (v : Visit) (s : Pass σ ρ) :
    BlockChange v.calculate (.loop .opening argument) index s
      (s.enterLoop v index argument).2.loops.blocks := by
  rw [enterLoop]
  dsimp only
  split
  · exact .stay
  split
  · exact .stay
  split
  · exact .enter _ rfl
  split
  · exact .enter _ rfl
  split
  · exact .enter _ rfl
  · split
    · exact .stay
    · exact .enter _ rfl

/-- Every step changes the open blocks in one of these ways. -/
theorem blocks_step (calculate : Bool) (line : Line) (index : Nat) (s : Pass σ ρ) :
    BlockChange calculate line.form index s (s.step calculate line index).2.loops.blocks := by
  obtain ⟨text, form⟩ := line
  have hcontent : ∀ word body, (s.visitContent (s.visit calculate ⟨text, form⟩ index) word
      body).2.loops = s.loops := by
    intro word body
    rw [visitContent]
    split <;> rfl
  cases form with
  | loop word argument =>
    cases word with
    | opening => exact blocks_enterLoop index argument (s.visit calculate _ index) s
    | closing => exact blocks_closeLoop index argument (s.visit calculate _ index) s
    | leave => exact blocks_leaveLoop _ index (s.visit calculate _ index) s
    | next => exact blocks_continueLoop _ index (s.visit calculate _ index) s
  | branch word rest =>
    show BlockChange _ _ _ _ (s.visitContent _ (some word) rest).2.loops.blocks
    rw [hcontent]
    exact .stay
  | content =>
    show BlockChange _ _ _ _ (s.visitContent _ none _).2.loops.blocks
    rw [hcontent]
    exact .stay
  | _ => exact .stay

end Pass

end Worksheet
