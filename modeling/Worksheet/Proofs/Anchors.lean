/-
Every anchor is written once at most.

A line inside a loop is visited again and again, but its anchor may stand in the markup only
once.  A visit computes an anchor only while all open blocks are in their first iteration, and
inner blocks start over with their first iteration whenever an outer one comes back to them.
What makes the anchors unique nevertheless is this: once a pass has left a line of a
well-nested sheet, it stays behind that line, or inside a loop around it that is past its
first iteration (`Pass.Left`).

* `Sheet.loop_mem_of_le` — a loop that is around a line is around all lines back to its start;
* `Pass.Left` — where a pass is once it left a line, with `Pass.left_tick`;
* `Pass.Left.not_first` — a pass that comes back is past a first iteration;
* `Workbench.anchors_unique` — the anchors of a whole pass.
-/
import Worksheet.Proofs.BalancedPass
import Worksheet.Proofs.Openings
import Worksheet.Proofs.Written

namespace Worksheet

open scoped List

/-! ### Loops around a line -/

namespace Sheet

variable {lines : Array Line} {i j line : Nat} {blocks after : List Opener}

/-- A loop around a line is around every line from its `#repeat` on. -/
theorem loop_mem_of_le (h : around lines j = some after) (hloop : .loop line ∈ after)
    (hline : line < i) (hle : i ≤ j) (hi : around lines i = some blocks) :
    .loop line ∈ blocks := by
  induction j generalizing after with
  | zero => omega
  | succ j ih =>
    by_cases heq : i = j + 1
    · subst heq
      rw [hi] at h
      cases h
      exact hloop
    · obtain ⟨before, l, hbefore, -, hm⟩ := around_succ h
      obtain ⟨inner, outer, rfl⟩ := List.append_of_mem hloop
      rcases Opener.suffix_of_meet hm (List.suffix_append inner _) with hs | ⟨rfl, -⟩
      · exact ih hbefore (hs.mem List.mem_cons_self) (by omega)
      · omega

/-- A loop is around later lines only. -/
theorem loop_lt (h : around lines i = some blocks) (hloop : .loop line ∈ blocks) : line < i := by
  induction i generalizing blocks with
  | zero =>
    cases h
    cases hloop
  | succ i ih =>
    obtain ⟨before, l, hbefore, -, hm⟩ := around_succ h
    obtain ⟨inner, outer, rfl⟩ := List.append_of_mem hloop
    rcases Opener.suffix_of_meet hm (List.suffix_append inner _) with hs | ⟨rfl, -⟩
    · exact Nat.lt_succ_of_lt (ih hbefore (hs.mem List.mem_cons_self))
    · exact Nat.lt_succ_self _

/-- No loop is around itself. -/
theorem loop_not_mem_outer {outer : List Opener} (h : around lines i = some blocks)
    (hloop : .loop line :: outer <:+ blocks) : .loop line ∉ outer := by
  intro hmem
  obtain ⟨inner, outer', rfl⟩ := List.append_of_mem hmem
  have hinner : .loop line :: outer' <:+ blocks :=
    (List.suffix_append inner _).trans ((List.suffix_cons _ _).trans hloop)
  -- around the first line of its body there would be two different lists of blocks
  have hfar := around_bodyStart h hloop
  rw [around_bodyStart h hinner] at hfar
  have hlength := congrArg List.length (Option.some.inj hfar)
  simp only [List.length_cons, List.length_append] at hlength
  omega

end Sheet

/-- Where all branches are taken, a `#loop` belongs to the innermost block. -/
theorem Fits.closing {pending : Bool} {line : Nat} {around : List Opener}
    {branches : List Branch} {f : Repetition} {rest : List Repetition}
    (h : Fits true pending (.loop line :: around) branches (f :: rest))
    (htaken : branches.all Branch.taken = true) : f.start = line := by
  cases h with
  | running => rfl
  | passed _ _ untaken =>
    rw [untaken rfl] at htaken
    cases htaken

namespace Pass

variable {σ ρ : Type}

/-! ### Lines that a pass has left -/

/-- The iterations of the open blocks are counted from one. -/
def Counted (s : Pass σ ρ) : Prop :=
  ∀ f ∈ s.loops.blocks, 0 < f.iteration

/-- A pass has left a line: it is behind the line, or in a loop around the line that is past
its first iteration. -/
def Left (lines : Array Line) (i j : Nat) (s : Pass σ ρ) : Prop :=
  i < j ∨ ∃ f ∈ s.loops.blocks, 1 < f.iteration ∧
    ∃ around, Sheet.around lines i = some around ∧ .loop f.start ∈ around

variable {lines : Array Line} {i j k : Nat} {s t u : Pass σ ρ}

/-- A pass that comes back to a line is past the first iteration of some loop. -/
theorem Left.not_first (h : Left lines i i s) : s.loops.isFirstIteration = false := by
  rcases h with hlt | ⟨f, hf, hiteration, -⟩
  · omega
  · rw [Loops.isFirstIteration, List.all_eq_false]
    refine ⟨f, hf, ?_⟩
    simp only [beq_iff_eq]
    omega

variable [MathEngine σ] [Plotter ρ σ] {calculate : Bool}

theorem Counted.tick (h : Counted s) (ht : s.tick calculate lines i = .go j t) : Counted t := by
  obtain ⟨line, -, -, hfollow⟩ := tick_go ht
  obtain ⟨-, hloops, -⟩ := follow_go hfollow
  have hchange := blocks_step calculate line i s
  rw [Counted, hloops]
  generalize (s.step calculate line i).2.loops.blocks = blocks at hchange
  cases hchange with
  | stay => exact h
  | enter count =>
    intro f hf
    rcases List.mem_cons.mp hf with rfl | hf
    · exact Nat.one_pos
    · exact h f hf
  | close _ _ _ hblocks =>
    intro f hf
    exact h f (by rw [hblocks]; exact List.mem_cons_of_mem _ hf)
  | @stop f rest hblocks =>
    intro g hg
    rcases List.mem_cons.mp hg with rfl | hg
    · exact h f (by rw [hblocks]; exact List.mem_cons_self)
    · exact h g (by rw [hblocks]; exact List.mem_cons_of_mem _ hg)
  | @again f g rest hblocks hagain =>
    obtain ⟨-, -, hiteration, -⟩ := Loops.again?_eq_some hagain
    intro k hk
    rcases List.mem_cons.mp hk with rfl | hk
    · omega
    · exact h k (by rw [hblocks]; exact List.mem_cons_of_mem _ hk)

theorem Reaches.counted (hr : Reaches calculate lines i s j t) (h : Counted s) : Counted t := by
  induction hr with
  | here => exact h
  | onward _ ht ih => exact ih.tick ht

/-- A step that goes back leads to the body of a loop around its line, past the first
iteration. -/
theorem loop_of_jump {line : Line} {around after : List Opener} (hb : Balanced calculate around s)
    (hm : Opener.meet j line.form around = some after) (hcounted : Counted s)
    (hstep : (s.step calculate line j).1 = .ok (.jump k)) :
    ∃ f ∈ (s.step calculate line j).2.loops.blocks, 1 < f.iteration ∧ k = f.start + 1 ∧
      .loop f.start ∈ around := by
  have hadv := balanced_step hb hm
  rw [Advances, hstep] at hadv
  obtain ⟨start, outer, hstart, hloop, -⟩ := hadv
  have hmove := move_step calculate line j s
  rw [hstep] at hmove
  change Loops.Move j _ (some k) _ at hmove
  generalize hbefore : s.loops.blocks = before at hmove
  generalize (s.step calculate line j).2.loops.blocks = now at hmove ⊢
  cases hmove with
  | @again f g rest hagain =>
    obtain ⟨-, -, hiteration, -⟩ := Loops.again?_eq_some hagain
    have hpos : 0 < f.iteration := hcounted f (by rw [hbefore]; exact List.mem_cons_self)
    obtain rfl : g.start = start := Nat.succ.inj hstart
    exact ⟨g, List.mem_cons_self, by omega, rfl, hloop.mem List.mem_cons_self⟩

/-- After a step, an open block is still open and no iteration was taken back, unless the line
is the end of its loop. -/
theorem open_or_ended {line : Line} {around after : List Opener} (hb : Balanced calculate around s)
    (hm : Opener.meet j line.form around = some after) {f : Repetition}
    (hf : f ∈ s.loops.blocks) :
    (∃ g ∈ (s.step calculate line j).2.loops.blocks,
      g.start = f.start ∧ f.iteration ≤ g.iteration) ∨ around = .loop f.start :: after := by
  have hchange := blocks_step calculate line j s
  generalize (s.step calculate line j).2.loops.blocks = now at hchange ⊢
  have hsame : f ∈ now → ∃ g ∈ now, g.start = f.start ∧ f.iteration ≤ g.iteration :=
    fun h => ⟨f, h, rfl, Nat.le_refl _⟩
  cases hchange with
  | stay => exact .inl (hsame hf)
  | enter count => exact .inl (hsame (List.mem_cons_of_mem _ hf))
  | @stop c rest hbefore =>
    rw [hbefore] at hf
    rcases List.mem_cons.mp hf with rfl | hf
    · exact .inl ⟨f.stop, List.mem_cons_self, rfl, Nat.le_refl _⟩
    · exact .inl (hsame (List.mem_cons_of_mem _ hf))
  | @again c g rest hbefore hagain =>
    obtain ⟨hstart, -, hnext, -⟩ := Loops.again?_eq_some hagain
    rw [hbefore] at hf
    rcases List.mem_cons.mp hf with rfl | hf
    · exact .inl ⟨g, List.mem_cons_self, hstart, by omega⟩
    · exact .inl (hsame (List.mem_cons_of_mem _ hf))
  | @close argument c rest hform hcalculate htaken hbefore =>
    rw [hbefore] at hf
    rcases List.mem_cons.mp hf with rfl | hf
    · -- the block that is closed is the one of the loop that ends here
      subst hcalculate
      rw [hform] at hm
      obtain ⟨start, rfl⟩ := Opener.meet_closeLoop hm
      have hfits := hb.fits
      rw [hbefore] at hfits
      rw [Conditions.isTaken_eq hb.sound] at htaken
      obtain rfl := hfits.closing htaken
      exact .inr rfl
    · exact .inl (hsame hf)

/-- A step from a line, or one of a pass that has left the line, leads to where the pass has
left it. -/
theorem left_tick (hn : Sheet.WellNested lines) (hbal : BalancedAt calculate lines j s)
    (hcounted : Counted s) (h : i = j ∨ Left lines i j s)
    (ht : s.tick calculate lines j = .go k t) : Left lines i k t := by
  obtain ⟨line, hl, -, hfollow⟩ := tick_go ht
  obtain ⟨hk, hloops, -⟩ := follow_go hfollow
  obtain ⟨around, after, haround, hafter, hm⟩ := hn.meet hl
  obtain ⟨around', haround', hb⟩ := hbal
  rw [haround] at haround'
  cases haround'
  by_cases hik : i < k
  · exact .inl hik
  by_cases hij : i ≤ j
  · -- the pass was at the line or behind it, so it goes back, into a loop around the line
    obtain ⟨blocks, hblocks⟩ := Sheet.around_of_le hij haround
    have hstep : (s.step calculate line j).1 = .ok (.jump k) := by
      generalize (s.step calculate line j).1 = r at hk
      rcases r with fault | (_ | next | _)
      · change k = j + 1 at hk
        omega
      · change k = j + 1 at hk
        omega
      · change k = next at hk
        rw [hk]
      · change k = j + 1 at hk
        omega
    obtain ⟨f, hf, hiteration, hstart, hmem⟩ := loop_of_jump hb hm hcounted hstep
    rw [← hloops] at hf
    exact .inr ⟨f, hf, hiteration, blocks, hblocks,
      Sheet.loop_mem_of_le haround hmem (by omega) hij hblocks⟩
  · -- it was in a loop around the line, and stays in it unless the loop ends
    obtain ⟨f, hf, hiteration, blocks, hblocks, hmem⟩ : ∃ f ∈ s.loops.blocks,
        1 < f.iteration ∧ ∃ around, Sheet.around lines i = some around ∧
          .loop f.start ∈ around := by
      rcases h with heq | hlt | hloop
      · omega
      · omega
      · exact hloop
    rcases open_or_ended hb hm hf with ⟨g, hg, hstart, hle⟩ | rfl
    · rw [← hloops] at hg
      rw [← hstart] at hmem
      exact .inr ⟨g, hg, by omega, blocks, hblocks, hmem⟩
    · -- behind the end of the loop, the loop is not around the line any more
      have hlt := Sheet.loop_lt haround List.mem_cons_self
      have hinside := Sheet.loop_mem_of_le hblocks hmem (by omega) (show j + 1 ≤ i by omega) hafter
      exact absurd hinside (Sheet.loop_not_mem_outer haround List.suffix_rfl)

/-- Once a pass has left a line, it stays behind the line or past a first iteration. -/
theorem Reaches.left (hn : Sheet.WellNested lines) (hbal : BalancedAt calculate lines i s)
    (hcounted : Counted s) (ht : s.tick calculate lines i = .go j t)
    (hr : Reaches calculate lines j t k u) : Left lines i k u := by
  induction hr with
  | here => exact left_tick hn hbal hcounted (.inl rfl) ht
  | onward hr ht' ih =>
    exact left_tick hn (hr.balanced hn (balancedAt_tick hn hbal ht))
      (hr.counted (hcounted.tick ht)) (.inr ih) ht'

/-! ### The anchors that were written -/

/-- The anchors that a pass has written belong to different lines, and it has left all of
them. -/
structure Anchored (lines : Array Line) (i : Nat) (s : Pass σ ρ) : Prop where
  nodup : (Piece.anchors s.page.output.toList).Nodup
  left : ∀ n ∈ Piece.anchors s.page.output.toList, ∃ m, n = m + 1 ∧ Left lines m i s

omit [MathEngine σ] [Plotter ρ σ] in
/-- What a visit writes adds its own anchor at most, and that one was not written before. -/
theorem Anchored.writes {line : Line} {p : Page σ ρ} (h : Anchored lines i s)
    (hw : Page.Writes (s.visit calculate line i).anchor s.page p) :
    (Piece.anchors p.output.toList).Nodup ∧
      ∀ n ∈ Piece.anchors p.output.toList,
        n ∈ Piece.anchors s.page.output.toList ∨ n = i + 1 := by
  obtain ⟨pieces, houtput, hanchors⟩ := hw
  rw [houtput, Piece.anchors_append]
  have hown : ∀ n ∈ Piece.anchors pieces, n = i + 1 ∧ s.loops.isFirstIteration = true := by
    intro n hn
    have hmem := hanchors.mem hn
    rw [visit] at hmem
    dsimp only at hmem
    split at hmem
    · next hfirst => exact ⟨by simpa using hmem, hfirst⟩
    · cases hmem
  refine ⟨?_, ?_⟩
  · rw [List.nodup_append]
    refine ⟨h.nodup, ?_, ?_⟩
    · refine List.Nodup.sublist hanchors ?_
      rcases (s.visit calculate line i).anchor with _ | n
      · simp
      · simp
    · rintro n hold m hnew rfl
      obtain ⟨rfl, hfirst⟩ := hown n hnew
      obtain ⟨m, hm, hleft⟩ := h.left _ hold
      obtain rfl : i = m := Nat.succ.inj hm
      rw [hleft.not_first] at hfirst
      cases hfirst
  · intro n hn
    rcases List.mem_append.mp hn with hold | hnew
    · exact .inl hold
    · exact .inr (hown n hnew).1

theorem Anchored.tick (hn : Sheet.WellNested lines) (hbal : BalancedAt calculate lines i s)
    (hcounted : Counted s) (h : Anchored lines i s)
    (ht : s.tick calculate lines i = .go j t) : Anchored lines j t := by
  obtain ⟨line, -, -, hfollow⟩ := tick_go ht
  have hwrites := writes_step calculate line i s
  rcases writes_follow line i (s.step calculate line i) with ⟨_, _, hdone, -⟩ | ⟨_, _, hgo, hreport⟩
  · rw [hfollow] at hdone
    cases hdone
  · rw [hfollow] at hgo
    cases hgo
    obtain ⟨hnodup, hfrom⟩ := h.writes (hwrites.trans_none hreport)
    refine ⟨hnodup, ?_⟩
    intro n hmem
    rcases hfrom n hmem with hold | rfl
    · obtain ⟨m, rfl, hleft⟩ := h.left n hold
      exact ⟨m, rfl, left_tick hn hbal hcounted (.inr hleft) ht⟩
    · exact ⟨i, rfl, left_tick hn hbal hcounted (.inl rfl) ht⟩

theorem Reaches.anchored (hn : Sheet.WellNested lines) (hbal : BalancedAt calculate lines i s)
    (hcounted : Counted s) (h : Anchored lines i s) (hr : Reaches calculate lines i s j t) :
    Anchored lines j t := by
  induction hr with
  | here => exact h
  | onward hr ht ih => exact ih.tick hn (hr.balanced hn hbal) (hr.counted hcounted) ht

/-- However a pass ends, its anchors belong to different lines. -/
theorem Anchored.done (h : Anchored lines i s) {ending : Ending}
    (ht : s.tick calculate lines i = .done ending t) :
    (Piece.anchors t.page.output.toList).Nodup := by
  rw [Pass.tick] at ht
  split at ht
  · cases ht
    exact h.nodup
  · next line hl =>
    split at ht
    · cases ht
      exact h.nodup
    · have hwrites := writes_step calculate line i s
      rcases writes_follow line i (s.step calculate line i) with
        ⟨_, _, hdone, hreport⟩ | ⟨_, _, hgo, -⟩
      · rw [ht] at hdone
        cases hdone
        exact (h.writes (hwrites.trans_none hreport)).1
      · rw [ht] at hgo
        cases hgo

end Pass

/-! ### A whole pass -/

namespace Workbench

variable {σ ρ : Type} [MathEngine σ] [Plotter ρ σ]

omit [MathEngine σ] [Plotter ρ σ] in
theorem anchors_unclosed (s : Pass σ ρ) : Piece.anchors s.unclosed = [] := by
  rw [Pass.unclosed, Piece.anchors_append]
  split <;> split <;> rfl

/-- **Anchors are unique** in a well-nested sheet, calculated or previewed, with any engine
and plotter, however the pass ends.  Once the pass has left a line, no later visit to that
line computes an anchor.  What a visit adds to the markup has the anchor that the visit
computed put in once at most, and no other anchor.  In the markup of a whole pass, the
anchors that were put in belong to different lines. -/
theorem anchors_unique (source : String) (calculate : Bool) (inputs : List String)
    (w : Workbench σ ρ) (hn : Sheet.WellNested (Sheet.lines source)) :
    (∀ i j s t u line, w.ComesTo source calculate inputs i s →
      s.tick calculate (Sheet.lines source) i = .go j t →
      Pass.Reaches calculate (Sheet.lines source) j t i u →
      (u.visit calculate line i).anchor = none) ∧
    (∀ i (s : Pass σ ρ) line, ∃ pieces anchors,
      (s.step calculate line i).2.page.output.toList = s.page.output.toList ++ pieces ∧
      anchors <+ (s.visit calculate line i).anchor.toList ∧
      Anchoring anchors (render (pieces.map Piece.unanchored)).toList (render pieces).toList) ∧
    ∃ anchors, anchors.Nodup ∧
      Anchoring anchors
        (render ((w.pieces source calculate inputs).1.map Piece.unanchored)).toList
        (render (w.pieces source calculate inputs).1).toList := by
  have hbal : Pass.BalancedAt calculate (Sheet.lines source) 0 (w.startPass calculate inputs) :=
    ⟨[], rfl, Pass.balanced_start calculate inputs _ w⟩
  have hcounted : (w.startPass calculate inputs).Counted := by
    intro f hf
    cases hf
  have hanchored : (w.startPass calculate inputs).Anchored (Sheet.lines source) 0 := by
    refine ⟨List.nodup_nil, ?_⟩
    intro n hn
    cases hn
  refine ⟨?_, ?_, ?_⟩
  · intro i j s t u line hs ht hr
    have hleft := Pass.Reaches.left hn (hs.balanced hn hbal) (hs.counted hcounted) ht hr
    rw [Pass.visit, hleft.not_first]
    rfl
  · intro i s line
    obtain ⟨pieces, houtput, hanchors⟩ := Pass.writes_step calculate line i s
    obtain ⟨anchors, hsub, hmarkup⟩ := anchoring_render pieces
    exact ⟨pieces, anchors, houtput, hsub.trans hanchors, hmarkup⟩
  · obtain ⟨anchors, hsub, hmarkup⟩ := anchoring_render (w.pieces source calculate inputs).1
    refine ⟨anchors, hsub.nodup ?_, hmarkup⟩
    obtain ⟨j, t, hreach, hdone⟩ :=
      Pass.exists_reaches_done calculate (Sheet.lines source) 0 (w.startPass calculate inputs)
    have hnodup := (hreach.anchored hn hbal hcounted hanchored).done hdone
    rw [pieces_eq]
    dsimp only
    split
    · rw [Piece.anchors_append, anchors_unclosed, List.append_nil]
      exact hnodup
    · rw [List.append_nil]
      exact hnodup

/-- A sheet with a line in a loop in a loop. -/
def nestedLoops : String :=
  "#repeat 2\n#repeat 2\n'again\n#loop\n#loop"

/-- The anchors of `nestedLoops` are written once each, although its lines are visited more
often. -/
theorem anchors_unique_nestedLoops :
    Sheet.WellNested (Sheet.lines nestedLoops) ∧
      ∃ anchors, anchors.Nodup ∧
        Anchoring anchors
          (render ((fresh.pieces nestedLoops true []).1.map Piece.unanchored)).toList
          (render (fresh.pieces nestedLoops true []).1).toList := by
  have hn : Sheet.WellNested (Sheet.lines nestedLoops) := by
    decide +kernel
  exact ⟨hn, (anchors_unique nestedLoops true [] fresh hn).2.2⟩

end Workbench

end Worksheet
