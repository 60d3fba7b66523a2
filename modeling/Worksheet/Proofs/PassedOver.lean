/-
What a pass does to the parts of a script that are not run.

Where a branch is not taken, or a loop was stopped, a pass still visits the lines: groups
and loops are opened and closed, so that their ends are found.  None of that leaves a trace
behind the part that is passed over, apart from what the groups around it know of matches
(`Conditions.Passed`).

* `Script.passed` — a script where nothing is live;
* `Alternatives.passed` — the further branches of a group where none is to be taken.
-/
import Worksheet.Proofs.Reading
import Worksheet.Proofs.Script
import Worksheet.Proofs.Steady
import Worksheet.Proofs.Visits

namespace Worksheet

/-! ### Where the lines of a script are -/

/-- From a position on, a sheet begins with some lines. -/
def Sheet.Holds (lines : Array Line) (i : Nat) (ls : List Line) : Prop :=
  ls <+: lines.toList.drop i

namespace Sheet.Holds

variable {lines : Array Line} {i : Nat}

theorem head {l : Line} {ls : List Line} (h : Holds lines i (l :: ls)) :
    lines[i]? = some l := by
  obtain ⟨tail, ht⟩ := h
  rw [← Array.getElem?_toList]
  have hget : (lines.toList.drop i)[0]? = some l := by
    rw [← ht]
    rfl
  simpa using hget

theorem tail {l : Line} {ls : List Line} (h : Holds lines i (l :: ls)) :
    Holds lines (i + 1) ls := by
  obtain ⟨tail, ht⟩ := h
  refine ⟨tail, ?_⟩
  rw [← List.tail_drop, ← ht]
  rfl

theorem left {ls ms : List Line} (h : Holds lines i (ls ++ ms)) : Holds lines i ls :=
  (List.prefix_append ls ms).trans h

theorem right {ls ms : List Line} (h : Holds lines i (ls ++ ms)) :
    Holds lines (i + ls.length) ms := by
  obtain ⟨tail, ht⟩ := h
  refine ⟨tail, ?_⟩
  rw [← List.drop_drop, ← ht, List.append_assoc, List.drop_left]

end Sheet.Holds

/-! ### Sheets without placeholders -/

/-- No line of a sheet takes input values. -/
def Sheet.NoInputs (lines : Array Line) : Prop :=
  ∀ (i : Nat) (l : Line), lines[i]? = some l → placeholderCount l.chars = 0

theorem mem_of_mem_splitLines {c : Char} {line cs : List Char} (hline : line ∈ Text.splitLines cs)
    (h : c ∈ line) : c ∈ cs := by
  obtain ⟨⟨line, ending⟩, hmem, rfl⟩ := List.mem_map.mp hline
  rw [← Text.joinBreaks_brokenLines cs]
  generalize Text.brokenLines cs = broken at hmem ⊢
  induction broken with
  | nil => cases hmem
  | cons b rest ih =>
    rw [Text.joinBreaks, List.mem_append, List.mem_append]
    rcases List.mem_cons.mp hmem with rfl | hrest
    · exact .inl (.inl h)
    · exact .inr (ih hrest)

variable {σ ρ : Type} [MathEngine σ]

/-! ### Conditions behind a part that was passed over -/

namespace Conditions

/-- The groups behind a part that was passed over, given those before it.  The open
branches are the same.  A match is never forgotten, and where an open branch is not taken,
none is added. -/
structure Passed (c d : Conditions) : Prop where
  sound : d.Sound
  branches : d.branches = c.branches
  pending : c.pending = false → d.pending = false
  matched : c.matched = true → d.matched = true
  unmatched : c.branches.all Branch.taken = false → d.matched = c.matched

namespace Passed

variable {c d e : Conditions}

theorem refl (h : c.Sound) : Passed c c :=
  ⟨h, rfl, id, id, fun _ => rfl⟩

theorem trans (h : Passed c d) (h' : Passed d e) : Passed c e where
  sound := h'.sound
  branches := h'.branches.trans h.branches
  pending := h'.pending ∘ h.pending
  matched := h'.matched ∘ h.matched
  unmatched := by
    intro hall
    rw [h'.unmatched (by rw [h.branches]; exact hall), h.unmatched hall]

end Passed

/-- Leaving a group that was opened before the part: nothing in it has matched unless the
group could be taken. -/
structure Left (c d : Conditions) : Prop where
  sound : d.Sound
  branches : d.branches = c.enclosing
  pending : d.pending = false
  matched : c.enclosing.all Branch.taken = true → d.matched = true
  unmatched : c.enclosing.all Branch.taken = false → d.matched = c.matched

theorem Passed.left {c d e : Conditions} (h : Passed c d) (h' : Left d e) : Left c e := by
  have henclosing : d.enclosing = c.enclosing := (List.cons.inj h.branches).2
  refine ⟨h'.sound, by rw [h'.branches, henclosing], h'.pending, ?_, ?_⟩
  · intro hall
    exact h'.matched (by rw [henclosing]; exact hall)
  · intro hall
    rw [h'.unmatched (by rw [henclosing]; exact hall)]
    apply h.unmatched
    show (c.current :: c.enclosing).all Branch.taken = false
    rw [List.all_cons, hall, Bool.and_false]

theorem Left.congr {c d e : Conditions} (h : Left d e) (henclosing : d.enclosing = c.enclosing)
    (hmatched : d.matched = c.matched) : Left c e := by
  obtain ⟨hs, hb, hp, hm, hu⟩ := h
  rw [henclosing] at hb hm hu
  rw [hmatched] at hu
  exact ⟨hs, hb, hp, hm, hu⟩

/-- A group that is passed over from its `#if` on. -/
theorem Passed.of_group {c d e f : Conditions} (hc : c.Sound)
    (henter : c.enter (some .opening) = .ok d) (hd : Passed d e) (he : Left e f) :
    Passed c f := by
  have hleft := hd.left he
  cases henter
  refine ⟨hleft.sound, hleft.branches, fun _ => hleft.pending, ?_, ?_⟩
  · intro hm
    rcases hall : c.branches.all Branch.taken with _ | _
    · rw [hleft.unmatched hall]
      show (if c.isTaken then false else c.matched) = true
      rw [isTaken_eq hc, hall]
      exact hm
    · exact hleft.matched hall
  · intro hall
    rw [hleft.unmatched hall]
    show (if c.isTaken then false else c.matched) = c.matched
    rw [isTaken_eq hc, hall]
    rfl

theorem Passed.depth_eq {c d : Conditions} (h : Passed c d) : d.depth = c.depth := by
  have hlen := congrArg List.length h.branches
  rw [length_branches, length_branches] at hlen
  omega

end Conditions

namespace Pass

variable [Plotter ρ σ] {lines : Array Line} {i : Nat} {s t : Pass σ ρ} {text : List Char}

/-- `#end if` leaves its group. -/
theorem passed_closing [Steady σ] (hl : lines[i]? = some ⟨text, .branch .closing []⟩)
    (hcount : placeholderCount text = 0) (hsound : s.conditions.Sound)
    (hquiet : s.page.cancel.raised = false) (hne : s.conditions.enclosing ≠ []) :
    ∃ d, Reaches true lines i s (i + 1) { s with conditions := d } ∧ s.conditions.Left d := by
  have henter := Conditions.enter_of_fits (Conditions.misplaced_closing hne)
  refine ⟨_, Reaches.step hl hquiet (step_bare henter rfl hcount), ?_⟩
  have hmatched := hsound.matched_pop hne
  constructor
  · exact hsound.pop
  · exact Conditions.branches_pop hne
  · rfl
  · intro hall
    show s.conditions.pop.matched = true
    rw [hmatched, hall, Bool.or_true]
  · intro hall
    show s.conditions.pop.matched = _
    rw [hmatched, hall, Bool.or_false]

/-- A further test of a group that is passed over: its branch waits where the group itself
is not live, and is rejected where the group has matched. -/
theorem passed_tested [Steady σ] {condition : Expression}
    (hl : lines[i]? = some ⟨text, .branch .alternative condition.chars⟩)
    (hcount : placeholderCount text = 0) (hsound : s.conditions.Sound)
    (hquiet : s.page.cancel.raised = false) (hne : s.conditions.enclosing ≠ [])
    (hkind : s.conditions.current.kind = .tested)
    (hover : live s.conditions.enclosing s.loops.blocks = true → s.conditions.matched = true) :
    ∃ d, Reaches true lines i s (i + 1) { s with conditions := d } ∧ d.Sound ∧
      d.current.kind = .tested ∧ d.enclosing = s.conditions.enclosing ∧
      d.matched = s.conditions.matched ∧ live d.branches s.loops.blocks = false := by
  have henter := Conditions.enter_of_fits
    (Conditions.misplaced_of_tested .alternative hne hkind)
  have hentered := hsound.enter henter
  have hexpression : condition.chars ≠ [] := by
    intro hnil
    exact condition.visible (by rw [hnil]; rfl)
  -- around the group nothing is live, or the group has matched
  rcases hlive : live s.conditions.enclosing s.loops.blocks with _ | _
  · refine ⟨_, Reaches.step hl hquiet ((step_branch_of_dead henter hentered ?_).trans ?_),
      hentered, rfl, rfl, rfl, ?_⟩
    · exact hlive
    · rw [hcount]
      rfl
    · exact hlive
  · refine ⟨_, Reaches.step hl hquiet
      (step_matched henter hentered hlive (hover hlive) rfl hexpression),
      hentered, rfl, rfl, ?_, rfl⟩
    show (s.conditions.matched || false) = _
    rw [Bool.or_false]

/-- A `#repeat` that is passed over, with its `#loop`.  Where the groups are not taken, no
block is opened.  Where they are, an outer loop was stopped, and the block that is opened is
stopped as well. -/
theorem passed_repeat [Steady σ] {count : List Char}
    (hl : lines[i]? = some ⟨text, .loop .opening count⟩) (hsound : s.conditions.Sound)
    (hquiet : s.page.cancel.raised = false)
    (hdead : live s.conditions.branches s.loops.blocks = false) :
    ∃ inside : Loops, Reaches true lines i s (i + 1) { s with loops := inside } ∧
      live s.conditions.branches inside.blocks = false ∧
      ∀ (j : Nat) (endText endArgument : List Char) (d : Conditions),
        lines[j]? = some ⟨endText, .loop .closing endArgument⟩ → s.conditions.Passed d →
        Reaches true lines j { s with conditions := d, loops := inside } (j + 1)
          { s with conditions := d } := by
  rcases hall : s.conditions.branches.all Branch.taken with _ | _
  · refine ⟨s.loops, .step hl hquiet (step_repeat_of_untaken hsound hall), hdead, ?_⟩
    intro j endText endArgument d hend hd
    exact .step hend hquiet (step_loop_of_untaken hd.sound (by rw [hd.branches]; exact hall))
  · have hstopped : stopped s.loops.blocks = true := by
      rw [live, hall, Bool.true_and, Bool.not_eq_false'] at hdead
      exact hdead
    refine ⟨s.loops.enter i (some 0) s.conditions.depth,
      .step hl hquiet (step_repeat_of_stopped hsound hall hstopped),
      live_of_stopped (stopped_of_remaining rfl s.loops.blocks), ?_⟩
    intro j endText endArgument d hend hd
    exact .step hend hquiet ((step_loop_of_taken hd.sound (by rw [hd.branches]; exact hall) rfl
      hd.depth_eq.symm).trans rfl)

end Pass

/-! ### Parts of a script that are passed over -/

section Parts

variable [Plotter ρ σ] [Steady σ] {lines : Array Line}

mutual

/-- Where nothing is live, a pass moves to the end of a script and changes no more than
what the groups know of matches. -/
theorem Script.passed (hn : Sheet.NoInputs lines) (b : Script) {i : Nat} {c : Conditions}
    {loops : Loops} {page : Page σ ρ} (hat : Sheet.Holds lines i b.lines) (hsound : c.Sound)
    (hquiet : page.cancel.raised = false) (hdead : live c.branches loops.blocks = false) :
    ∃ d, Pass.Reaches true lines i ⟨c, loops, page⟩ (i + b.size) ⟨d, loops, page⟩ ∧
      c.Passed d := by
  match b with
  | .done => exact ⟨c, .here, .refl hsound⟩
  | .blank text rest =>
    have hstep : Pass.Reaches true lines i ⟨c, loops, page⟩ (i + 1) ⟨c, loops, page⟩ :=
      .step hat.head hquiet (Pass.step_blank_of_dead hsound hdead)
    obtain ⟨d, hr, hd⟩ := rest.passed hn hat.tail hsound hquiet hdead
    exact ⟨d, (hstep.trans hr).at (by rw [Script.size_blank]; omega), hd⟩
  | .content text rest =>
    have hlabel : c.Passed { c with label := none } := ⟨hsound, rfl, id, id, fun _ => rfl⟩
    have hstep : Pass.Reaches true lines i ⟨c, loops, page⟩ (i + 1)
        ⟨{ c with label := none }, loops, page⟩ := by
      refine .step hat.head hquiet ((Pass.step_content_of_dead hsound hdead).trans ?_)
      rw [show placeholderCount text = 0 from hn i _ hat.head]
      rfl
    obtain ⟨d, hr, hd⟩ := rest.passed hn hat.tail hlabel.sound hquiet hdead
    exact ⟨d, (hstep.trans hr).at (by rw [Script.size_content]; omega), hlabel.trans hd⟩
  | .leave text argument rest =>
    have hstep : Pass.Reaches true lines i ⟨c, loops, page⟩ (i + 1) ⟨c, loops, page⟩ :=
      .step hat.head hquiet (Pass.step_leave_of_dead hsound hdead)
    obtain ⟨d, hr, hd⟩ := rest.passed hn hat.tail hsound hquiet hdead
    exact ⟨d, (hstep.trans hr).at (by rw [Script.size_leave]; omega), hd⟩
  | .next text argument rest =>
    have hstep : Pass.Reaches true lines i ⟨c, loops, page⟩ (i + 1) ⟨c, loops, page⟩ :=
      .step hat.head hquiet (Pass.step_next_of_dead hsound hdead)
    obtain ⟨d, hr, hd⟩ := rest.passed hn hat.tail hsound hquiet hdead
    exact ⟨d, (hstep.trans hr).at (by rw [Script.size_next]; omega), hd⟩
  | .group text condition body others rest =>
    have hinside := hat.tail
    obtain ⟨o, henter, hbranches⟩ : ∃ o, c.enter (some .opening) = .ok o ∧
        o.branches = ⟨true, .tested⟩ :: c.branches := ⟨_, rfl, rfl⟩
    have hopened : o.Sound := hsound.enter henter
    have hdead' : live o.branches loops.blocks = false := by
      rw [hbranches]
      exact hdead
    have hstep : Pass.Reaches true lines i ⟨c, loops, page⟩ (i + 1) ⟨o, loops, page⟩ := by
      refine .step hat.head hquiet ((Pass.step_branch_of_dead henter hopened hdead').trans ?_)
      rw [show placeholderCount text = 0 from hn i _ hat.head]
      rfl
    -- the body and the further branches, up to the end of the group
    obtain ⟨d, hr, hd⟩ := body.passed hn hinside.left hopened hquiet hdead'
    obtain ⟨hcurrent, henclosing⟩ := List.cons.inj (hd.branches.trans hbranches)
    obtain ⟨e, hr', he⟩ := others.passed hn hinside.right.left hd.sound hquiet
      (by rw [henclosing]; exact List.cons_ne_nil _ _) (by rw [hcurrent])
      (by rw [henclosing, hdead]; intro hlive; cases hlive)
    have hpassed : c.Passed e := .of_group hsound henter hd he
    -- what follows the group
    obtain ⟨f, hr'', hf⟩ := rest.passed hn hinside.right.right hpassed.sound hquiet
      (by rw [hpassed.branches]; exact hdead)
    refine ⟨f, (((hstep.trans hr).trans hr').trans hr'').at ?_, hpassed.trans hf⟩
    rw [Script.size_group]
    show i + 1 + body.size + others.size + rest.size = _
    omega
  | .loop text count body endText endArgument rest =>
    have hinside := hat.tail
    obtain ⟨inside, hstep, hdead', hend⟩ :
        ∃ inside : Loops, Pass.Reaches true lines i ⟨c, loops, page⟩ (i + 1) ⟨c, inside, page⟩ ∧
          live c.branches inside.blocks = false ∧
          ∀ (j : Nat) (endText endArgument : List Char) (d : Conditions),
            lines[j]? = some ⟨endText, .loop .closing endArgument⟩ → c.Passed d →
            Pass.Reaches true lines j ⟨d, inside, page⟩ (j + 1) ⟨d, loops, page⟩ :=
      Pass.passed_repeat hat.head hsound hquiet hdead
    obtain ⟨d, hr, hd⟩ := body.passed hn hinside.left hsound hquiet hdead'
    have hclosed := hend _ _ _ d hinside.right.head hd
    obtain ⟨e, hr', he⟩ := rest.passed hn hinside.right.tail hd.sound hquiet
      (by rw [hd.branches]; exact hdead)
    refine ⟨e, (((hstep.trans hr).trans hclosed).trans hr').at ?_, hd.trans he⟩
    rw [Script.size_loop]
    show i + 1 + body.size + 1 + rest.size = _
    omega

/-- The further branches of a group are passed over up to its end, if the group is not
live or has matched. -/
theorem Alternatives.passed (hn : Sheet.NoInputs lines) (a : Alternatives) {i : Nat}
    {c : Conditions} {loops : Loops} {page : Page σ ρ} (hat : Sheet.Holds lines i a.lines)
    (hsound : c.Sound) (hquiet : page.cancel.raised = false) (hne : c.enclosing ≠ [])
    (hkind : c.current.kind = .tested)
    (hover : live c.enclosing loops.blocks = true → c.matched = true) :
    ∃ d, Pass.Reaches true lines i ⟨c, loops, page⟩ (i + a.size) ⟨d, loops, page⟩ ∧
      c.Left d := by
  match a with
  | .closing text => exact Pass.passed_closing hat.head (hn i _ hat.head) hsound hquiet hne
  | .otherwise text body endText =>
    have hinside := hat.tail
    obtain ⟨o, henter, hbranches, hmatched, hpending⟩ : ∃ o, c.enter (some .otherwise) = .ok o ∧
        o.branches = ⟨!c.matched, .otherwise⟩ :: c.enclosing ∧ o.matched = c.matched ∧
        o.pending = false :=
      ⟨_, Conditions.enter_of_fits (Conditions.misplaced_of_tested .otherwise hne hkind), rfl, rfl,
        rfl⟩
    have hchanged : o.Sound := hsound.enter henter
    have hdead : live o.branches loops.blocks = false := by
      rw [hbranches, live_cons]
      rcases hm : c.matched with _ | _
      · -- the group has not matched, so it is not live
        rcases hlive : live c.enclosing loops.blocks with _ | _
        · rfl
        · rw [hover hlive] at hm
          cases hm
      · rfl
    have hstep : Pass.Reaches true lines i ⟨c, loops, page⟩ (i + 1) ⟨o, loops, page⟩ :=
      .step hat.head hquiet (Pass.step_bare henter hpending (hn i _ hat.head))
    obtain ⟨d, hr, hd⟩ := body.passed hn hinside.left hchanged hquiet hdead
    obtain ⟨-, henclosing⟩ := List.cons.inj (hd.branches.trans hbranches)
    obtain ⟨e, hend, he⟩ : ∃ e, Pass.Reaches true lines (i + 1 + body.size) ⟨d, loops, page⟩
        (i + 1 + body.size + 1) ⟨e, loops, page⟩ ∧ d.Left e :=
      Pass.passed_closing hinside.right.head (hn _ _ hinside.right.head) hd.sound hquiet
        (by rw [henclosing]; exact hne)
    refine ⟨e, ((hstep.trans hr).trans hend).at ?_, (hd.left he).congr ?_ hmatched⟩
    · rw [Alternatives.size_otherwise]
      omega
    · exact (List.cons.inj hbranches).2
  | .tested text condition body others =>
    have hinside := hat.tail
    obtain ⟨o, hstep, hchanged, hkind', henclosing, hmatched, hdead⟩ :
        ∃ o, Pass.Reaches true lines i ⟨c, loops, page⟩ (i + 1) ⟨o, loops, page⟩ ∧ o.Sound ∧
          o.current.kind = .tested ∧ o.enclosing = c.enclosing ∧ o.matched = c.matched ∧
          live o.branches loops.blocks = false :=
      Pass.passed_tested hat.head (hn i _ hat.head) hsound hquiet hne hkind hover
    obtain ⟨d, hr, hd⟩ := body.passed hn hinside.left hchanged hquiet hdead
    obtain ⟨hcurrent, henclosing'⟩ := List.cons.inj hd.branches
    -- the body forgets no match, so the further branches are passed over for the same reason
    have hover' : live d.enclosing loops.blocks = true → d.matched = true := by
      intro hlive
      rw [henclosing', henclosing] at hlive
      exact hd.matched (by rw [hmatched]; exact hover hlive)
    obtain ⟨e, hr', he⟩ := others.passed hn hinside.right hd.sound hquiet
      (by rw [henclosing', henclosing]; exact hne) (by rw [hcurrent]; exact hkind') hover'
    refine ⟨e, ((hstep.trans hr).trans hr').at ?_, (hd.left he).congr henclosing hmatched⟩
    rw [Alternatives.size_tested]
    show i + 1 + body.size + others.size = _
    omega

end

end Parts

end Worksheet
