/-
Where a pass comes to by running a part of a script.

Running a part and passing over the rest of a body come together in `Pass.Lands`: where a
part is run through, or left by `#break` or `#continue`, the pass arrives behind the part
or at the next iteration of the innermost loop, with the groups that were open before the
part and with the page of the run.  Parts that follow each other, or lie inside a group,
land where they should if each of them does.

* `Conditions.Ready` — the groups at a place where lines are run;
* `Pass.Lands` — where a pass comes to, given how the run of a part exits;
* `Pass.Lands.andThen`, `Pass.Lands.outward` — a part and what follows it, and the body of
  a group.
-/
import Worksheet.Proofs.PassedOver

namespace Worksheet

/-! ### Groups where lines are run -/

namespace Conditions

/-- The groups at a place where lines are run: every branch is taken, no condition waits,
and a branch with a condition has matched. -/
structure Ready (c : Conditions) : Prop where
  sound : c.Sound
  taken : c.branches.all Branch.taken = true
  pending : c.pending = false
  matched : c.current.kind = .tested → c.matched = true

namespace Ready

variable {c d : Conditions}

theorem initial : Conditions.initial.Ready where
  sound := sound_initial
  taken := rfl
  pending := rfl
  matched := by
    intro h
    cases h

theorem clearLabel (h : c.Ready) : { c with label := none }.Ready :=
  ⟨h.sound, h.taken, h.pending, h.matched⟩

/-- Passing over a part leaves the groups ready. -/
theorem passed (h : c.Ready) (hp : c.Passed d) : d.Ready where
  sound := hp.sound
  taken := by
    rw [hp.branches]
    exact h.taken
  pending := hp.pending h.pending
  matched := by
    intro hkind
    have hcurrent : d.current = c.current := (List.cons.inj hp.branches).1
    rw [hcurrent] at hkind
    exact hp.matched (h.matched hkind)

/-- Leaving a group leaves the groups around it ready. -/
theorem left (hl : c.Left d) (htaken : c.enclosing.all Branch.taken = true) : d.Ready where
  sound := hl.sound
  taken := by
    rw [hl.branches]
    exact htaken
  pending := hl.pending
  matched := fun _ => hl.matched htaken

theorem taken_enclosing (h : c.Ready) : c.enclosing.all Branch.taken = true := by
  have htaken : (c.current :: c.enclosing).all Branch.taken = true := h.taken
  rw [List.all_cons, Bool.and_eq_true] at htaken
  exact htaken.2

theorem pop (h : c.Ready) (hne : c.enclosing ≠ []) : c.pop.Ready where
  sound := h.sound.pop
  taken := by
    rw [branches_pop hne]
    exact h.taken_enclosing
  pending := by
    rw [Conditions.pop]
    split
    · exact h.pending
    · exact h.pending
  matched := by
    intro _
    rw [h.sound.matched_pop hne, h.taken_enclosing, Bool.or_true]

theorem popTimes {n : Nat} (h : c.Ready) (hn : n ≤ c.depth) : (popTimes n c).Ready := by
  induction n generalizing c with
  | zero => exact h
  | succ n ih =>
    have hne : c.enclosing ≠ [] := by
      intro hnil
      rw [depth, hnil, List.length_nil] at hn
      omega
    have hdepth : n ≤ c.pop.depth := by
      have hlen := congrArg List.length (branches_pop hne)
      rw [length_branches] at hlen
      rw [depth] at hn hlen ⊢
      omega
    exact ih (h.pop hne) hdepth

/-- Closing the groups inside a loop leaves the groups around the loop ready. -/
theorem closeTo (h : c.Ready) (depth : Nat) : (c.closeTo depth).Ready := by
  obtain ⟨hs, ht, -, hm⟩ := h.popTimes (Nat.sub_le c.depth depth)
  exact ⟨hs, ht, rfl, hm⟩

end Ready

end Conditions

/-! ### Where a pass lands -/

namespace Pass

variable {σ ρ : Type} [MathEngine σ] [Plotter ρ σ] {lines : Array Line} {i j k : Nat}
  {s t : Pass σ ρ} {home : List Branch} {loops : Loops} {page : Page σ ρ}

/-- A pass arrives at a position where lines are run, with some open branches, blocks and
a page. -/
def Arrives (lines : Array Line) (i : Nat) (s : Pass σ ρ) (j : Nat) (home : List Branch)
    (loops : Loops) (page : Page σ ρ) : Prop :=
  ∃ d, Reaches true lines i s j ⟨d, loops, page⟩ ∧ d.Ready ∧ d.branches = home ∧
    page.cancel.raised = false

/-- A pass ends with a page before it moves past the last line. -/
def Ends (lines : Array Line) (i : Nat) (s : Pass σ ρ) (page : Page σ ρ) : Prop :=
  ∃ ending t, s.run true lines i = (ending, t) ∧ ending ≠ .completed ∧ t.page = page

/-- Blocks with another one innermost. -/
def innermost (f : Repetition) (rest : List Repetition) (loops : Loops) : Loops :=
  { loops with blocks := f :: rest }

/-- Where a pass comes to by the part of a script up to a position, given how the run of
the part exits.  After `#continue` it is the next iteration of the innermost loop, with
the groups inside that loop closed; without one, and after `#break`, the innermost block
is stopped, and the pass still comes to the end of the part. -/
def Lands (lines : Array Line) (i : Nat) (s : Pass σ ρ) (j : Nat) (home : List Branch)
    (r : Exit × Page σ ρ) : Prop :=
  match r with
  | (.through, p) => Arrives lines i s j home s.loops p
  | (.leave, p) =>
    ∃ f rest, s.loops.blocks = f :: rest ∧
      Arrives lines i s j home (innermost f.stop rest s.loops) p
  | (.next, p) =>
    ∃ f rest, s.loops.blocks = f :: rest ∧
      match f.again? with
      | some g =>
        Arrives lines i s g.bodyStart (home.drop (home.length - (f.groups + 1)))
          (innermost g rest s.loops) p
      | none => Arrives lines i s j home (innermost f.stop rest s.loops) p
  | (.ended, p) => Ends lines i s p

theorem Arrives.prepend (hr : Reaches true lines i s j t)
    (h : Arrives lines j t k home loops page) : Arrives lines i s k home loops page := by
  obtain ⟨d, hd, hready⟩ := h
  exact ⟨d, hr.trans hd, hready⟩

theorem Ends.prepend (hr : Reaches true lines i s j t) (h : Ends lines j t page) :
    Ends lines i s page := by
  obtain ⟨ending, u, hrun, hend⟩ := h
  exact ⟨ending, u, (run_eq_of_reaches hr).trans hrun, hend⟩

theorem Ends.of_aborted (h : s.tick true lines i = .done .aborted t) :
    Ends lines i s t.page :=
  ⟨.aborted, t, run_of_done h, by simp, rfl⟩

/-- What a pass comes to from one place, it comes to from every place before it. -/
theorem Lands.prepend {r : Exit × Page σ ρ} (hr : Reaches true lines i s j t)
    (hloops : t.loops = s.loops) (h : Lands lines j t k home r) : Lands lines i s k home r := by
  obtain ⟨exit, p⟩ := r
  cases exit with
  | through =>
    rw [Lands, hloops] at h
    exact h.prepend hr
  | leave =>
    rw [Lands, hloops] at h
    obtain ⟨f, rest, hblocks, h⟩ := h
    exact ⟨f, rest, hblocks, h.prepend hr⟩
  | next =>
    rw [Lands, hloops] at h
    obtain ⟨f, rest, hblocks, h⟩ := h
    refine ⟨f, rest, hblocks, ?_⟩
    rcases hg : f.again? with _ | g
    · rw [hg] at h
      exact h.prepend hr
    · rw [hg] at h
      exact h.prepend hr
  | ended => exact Ends.prepend hr h

theorem Lands.at {r : Exit × Page σ ρ} (h : Lands lines i s j home r) (hj : j = k) :
    Lands lines i s k home r :=
  hj ▸ h

/-- Behind a part comes what follows it: that is run if the part is run through, and
passed over if the innermost loop was stopped. -/
theorem Lands.andThen {r : Exit × Page σ ρ} {onward : Page σ ρ → Exit × Page σ ρ}
    (h : Lands lines i s j home r)
    (hpass : ∀ (c : Conditions) (loops : Loops) (p : Page σ ρ), c.Sound →
      p.cancel.raised = false → live c.branches loops.blocks = false →
      ∃ d, Reaches true lines j ⟨c, loops, p⟩ k ⟨d, loops, p⟩ ∧ c.Passed d)
    (hrest : ∀ (c : Conditions) (p : Page σ ρ), c.Ready → c.branches = home →
      p.cancel.raised = false → Lands lines j ⟨c, s.loops, p⟩ k home (onward p)) :
    Lands lines i s k home (andThen r onward) := by
  -- after `#break`, and after `#continue` in the last iteration, what follows is not live
  have hstopped : ∀ (f : Repetition) (rest : List Repetition) (p : Page σ ρ),
      Arrives lines i s j home (innermost f.stop rest s.loops) p →
      Arrives lines i s k home (innermost f.stop rest s.loops) p := by
    rintro f rest p ⟨c, hr, hready, hbranches, hquiet⟩
    have hdead : live c.branches (innermost f.stop rest s.loops).blocks = false :=
      live_of_stopped (stopped_of_remaining rfl rest)
    obtain ⟨d, hr', hd⟩ := hpass c _ p hready.sound hquiet hdead
    exact ⟨d, hr.trans hr', hready.passed hd, hd.branches.trans hbranches, hquiet⟩
  obtain ⟨exit, p⟩ := r
  cases exit with
  | through =>
    obtain ⟨c, hr, hready, hbranches, hquiet⟩ := h
    exact (hrest c p hready hbranches hquiet).prepend hr rfl
  | leave =>
    obtain ⟨f, rest, hblocks, h⟩ := h
    exact ⟨f, rest, hblocks, hstopped f rest p h⟩
  | next =>
    obtain ⟨f, rest, hblocks, h⟩ := h
    refine ⟨f, rest, hblocks, ?_⟩
    rcases hg : f.again? with _ | g
    · rw [hg] at h
      exact hstopped f rest p h
    · rw [hg] at h
      exact h
  | ended => exact h

/-- From the body of a group, a pass comes to the end of the group. -/
theorem Lands.outward {r : Exit × Page σ ρ} {b : Branch} (h : Lands lines i s j (b :: home) r)
    (hend : ∀ (c : Conditions) (loops : Loops) (p : Page σ ρ), c.Ready →
      c.branches = b :: home → p.cancel.raised = false →
      ∃ d, Reaches true lines j ⟨c, loops, p⟩ k ⟨d, loops, p⟩ ∧ c.Left d)
    (hgroups : ∀ f rest, s.loops.blocks = f :: rest → f.groups + 1 ≤ home.length) :
    Lands lines i s k home r := by
  -- where the pass comes to the end of the body, the end of the group is one step further
  have harrives : ∀ (loops : Loops) (p : Page σ ρ), Arrives lines i s j (b :: home) loops p →
      Arrives lines i s k home loops p := by
    rintro loops p ⟨c, hr, hready, hbranches, hquiet⟩
    obtain ⟨d, hr', hd⟩ := hend c loops p hready hbranches hquiet
    refine ⟨d, hr.trans hr', .left hd hready.taken_enclosing, ?_, hquiet⟩
    rw [hd.branches]
    exact (List.cons.inj hbranches).2
  obtain ⟨exit, p⟩ := r
  cases exit with
  | through => exact harrives _ _ h
  | leave =>
    obtain ⟨f, rest, hblocks, h⟩ := h
    exact ⟨f, rest, hblocks, harrives _ _ h⟩
  | next =>
    obtain ⟨f, rest, hblocks, h⟩ := h
    refine ⟨f, rest, hblocks, ?_⟩
    rcases hg : f.again? with _ | g
    · rw [hg] at h
      exact harrives _ _ h
    · rw [hg] at h
      -- going back closes this group in any case: it is inside the loop
      have hle := hgroups f rest hblocks
      dsimp only at h ⊢
      rw [List.length_cons, show home.length + 1 - (f.groups + 1) =
        home.length - (f.groups + 1) + 1 by omega, List.drop_succ_cons] at h
      exact h
  | ended => exact h

end Pass

end Worksheet
