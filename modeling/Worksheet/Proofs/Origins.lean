/-
Which groups are open at a `#loop`.

A block remembers how many groups were open when it was entered, and `#loop` compares that
number with the groups that are open now.  To tell the groups apart, a record is kept along
a pass that names each open group by the step that opened it.  What a `#loop` that fits says
about the groups is then this: as many are open as when the block was entered, and those of
them that were closed since have been replaced one for one.  So the groups are the same
exactly if none of them was closed, and that a group was replaced goes unnoticed.

* `Origins` — the open groups and blocks of a pass, by the steps that opened them;
* `Origins.Tracks.go` — the record agrees with the state at every place;
* `Workbench.accepted_loop_groups` — the groups at a `#loop`, accepted or not.
-/
import Worksheet.Proofs.Openings

namespace Worksheet

/-! ### The record -/

/-- An open block: the step that opened it, and the groups that were open then. -/
structure BlockOrigin where
  step : Nat
  groups : List Nat
  deriving DecidableEq, Repr

/-- The open groups and blocks of a pass, the innermost first.  A group is named by the
step that opened it. -/
structure Origins where
  groups : List Nat
  blocks : List BlockOrigin
  deriving DecidableEq, Repr

namespace Origins

/-- Nothing is open. -/
def initial : Origins :=
  ⟨[], []⟩

/-- The record after a step at a line, given how many groups and blocks are open then.  An
`#if` opens a group, and if there are more blocks than before, one was opened; whatever else
a step does, it closes groups and blocks from the inside out. -/
def after (step : Nat) (form : LineForm) (groups blocks : Nat) (o : Origins) : Origins where
  groups :=
    if form.opensGroup then step :: o.groups
    else o.groups.drop (o.groups.length - groups)
  blocks :=
    if o.blocks.length < blocks then ⟨step, o.groups⟩ :: o.blocks
    else o.blocks.drop (o.blocks.length - blocks)

end Origins

/-! ### What is left of the groups around a block -/

namespace BlockOrigin

/-- The groups that are open now are what is left of those around a block, and inside them
groups that were opened later than the block. -/
def Remains (b : BlockOrigin) (groups : List Nat) : Prop :=
  ∃ opened kept, groups = opened ++ kept ∧ kept <:+ b.groups ∧ ∀ g ∈ opened, b.step < g

/-- The groups around a block were opened one after the other, and before the block. -/
structure Ordered (b : BlockOrigin) : Prop where
  descending : b.groups.Pairwise (· > ·)
  earlier : ∀ g ∈ b.groups, g < b.step

variable {b : BlockOrigin} {groups : List Nat}

theorem Remains.self (b : BlockOrigin) : b.Remains b.groups :=
  ⟨[], b.groups, rfl, List.suffix_rfl, by simp⟩

theorem Remains.cons {g : Nat} (h : b.Remains groups) (hg : b.step < g) :
    b.Remains (g :: groups) := by
  obtain ⟨opened, kept, rfl, hkept, hopened⟩ := h
  refine ⟨g :: opened, kept, rfl, hkept, ?_⟩
  intro k hk
  rcases List.mem_cons.mp hk with rfl | hk
  · exact hg
  · exact hopened k hk

theorem Remains.drop (h : b.Remains groups) (n : Nat) : b.Remains (groups.drop n) := by
  obtain ⟨opened, kept, rfl, hkept, hopened⟩ := h
  refine ⟨opened.drop n, kept.drop (n - opened.length), List.drop_append, ?_, ?_⟩
  · exact (List.drop_suffix _ _).trans hkept
  · exact fun g hg => hopened g (List.mem_of_mem_drop hg)

/-- Where as many groups are open as around the block, those that were closed have been
replaced one for one. -/
theorem Remains.replaced (h : b.Remains groups) (hb : b.Ordered)
    (hlength : groups.length = b.groups.length) :
    ∃ opened closed kept, groups = opened ++ kept ∧ b.groups = closed ++ kept ∧
      opened.length = closed.length ∧ (∀ g ∈ opened, b.step < g) ∧
      ∀ g ∈ closed, g ∉ groups := by
  obtain ⟨opened, kept, rfl, ⟨closed, hclosed⟩, hopened⟩ := h
  refine ⟨opened, closed, kept, rfl, hclosed.symm, ?_, hopened, ?_⟩
  · rw [← hclosed, List.length_append, List.length_append] at hlength
    omega
  · intro g hg hmem
    have hdescending := hb.descending
    have hearlier := hb.earlier g (by rw [← hclosed]; exact List.mem_append_left _ hg)
    rcases List.mem_append.mp hmem with hmem | hmem
    · have := hopened g hmem
      omega
    · -- a group that was closed is not one of those around it
      rw [← hclosed] at hdescending
      have := (List.pairwise_append.mp hdescending).2.2 g hg g hmem
      omega

/-- The groups are those around the block exactly if none of these was closed. -/
theorem Remains.eq_iff (h : b.Remains groups) (hb : b.Ordered)
    (hlength : groups.length = b.groups.length) :
    groups = b.groups ↔ ∀ g ∈ b.groups, g ∈ groups := by
  constructor
  · rintro rfl g hg
    exact hg
  · intro hall
    obtain ⟨opened, closed, kept, hgroups, hkept, hsame, -, hgone⟩ := h.replaced hb hlength
    have hnone : closed = [] := by
      rw [List.eq_nil_iff_forall_not_mem]
      intro g hg
      exact hgone g hg (hall g (by rw [hkept]; exact List.mem_append_left _ hg))
    subst hnone
    rw [List.length_nil, List.length_eq_zero_iff] at hsame
    rw [hgroups, hkept, hsame]

end BlockOrigin

/-! ### The record agrees with the state -/

namespace Origins

variable {σ ρ : Type}

/-- The record agrees with the state that a pass is in after a number of steps. -/
structure Tracks (steps : Nat) (o : Origins) (s : Pass σ ρ) : Prop where
  depth : o.groups.length = s.conditions.depth
  blocks : o.blocks.map (fun b => b.groups.length) = s.loops.blocks.map Repetition.groups
  descending : o.groups.Pairwise (· > ·)
  earlier : ∀ g ∈ o.groups, g < steps
  ordered : ∀ b ∈ o.blocks, b.Ordered ∧ b.step < steps
  remains : ∀ b ∈ o.blocks, b.Remains o.groups

theorem tracks_start (inputs : List String) (engine : σ) (w : Workbench σ ρ) :
    Tracks 0 initial (Pass.start inputs engine w) where
  depth := rfl
  blocks := rfl
  descending := .nil
  earlier := by simp [initial]
  ordered := by simp [initial]
  remains := by simp [initial]

/-! The record after a step, case by case. -/

section After

variable {n groups blocks : Nat} {form : LineForm} {o : Origins}

theorem groups_after_open (h : form.opensGroup = true) :
    (o.after n form groups blocks).groups = n :: o.groups := by
  simp [after, h]

theorem groups_after_close (h : form.opensGroup = false) :
    (o.after n form groups blocks).groups = o.groups.drop (o.groups.length - groups) := by
  simp [after, h]

theorem blocks_after_stay (h : o.blocks.length = blocks) :
    (o.after n form groups blocks).blocks = o.blocks := by
  simp [after, h]

theorem blocks_after_enter (h : o.blocks.length + 1 = blocks) :
    (o.after n form groups blocks).blocks = ⟨n, o.groups⟩ :: o.blocks := by
  have hlt : o.blocks.length < blocks := by omega
  simp [after, hlt]

theorem blocks_after_close (h : blocks + 1 = o.blocks.length) :
    (o.after n form groups blocks).blocks = o.blocks.tail := by
  have hlt : ¬o.blocks.length < blocks := by omega
  have hone : o.blocks.length - blocks = 1 := by omega
  simp [after, hlt, hone]

end After

/-- The groups in the record after a step, given how many groups it leaves open. -/
theorem Tracks.groups_after {n depth : Nat} {form : LineForm} {o : Origins}
    {s : Pass σ ρ} (h : Tracks n o s) (blocks : Nat)
    (hdepth : if form.opensGroup then depth = s.conditions.depth + 1
      else depth ≤ s.conditions.depth) :
    (o.after n form depth blocks).groups.length = depth ∧
      (o.after n form depth blocks).groups.Pairwise (· > ·) ∧
      (∀ g ∈ (o.after n form depth blocks).groups, g < n + 1) ∧
      ∀ b : BlockOrigin, b.step < n → b.Remains o.groups →
        b.Remains (o.after n form depth blocks).groups := by
  by_cases hform : form.opensGroup = true
  · -- one more group, opened by this step
    rw [if_pos hform] at hdepth
    rw [groups_after_open hform]
    refine ⟨?_, ?_, ?_, ?_⟩
    · rw [List.length_cons, h.depth, hdepth]
    · exact List.pairwise_cons.mpr ⟨h.earlier, h.descending⟩
    · intro g hg
      rcases List.mem_cons.mp hg with rfl | hg
      · omega
      · have := h.earlier g hg
        omega
    · exact fun b hb hr => hr.cons hb
  · -- an outer part of the groups before
    rw [if_neg hform] at hdepth
    rw [groups_after_close (by simpa using hform)]
    refine ⟨?_, ?_, ?_, ?_⟩
    · rw [List.length_drop, h.depth]
      omega
    · exact h.descending.sublist (List.drop_sublist _ _)
    · intro g hg
      have := h.earlier g (List.mem_of_mem_drop hg)
      omega
    · exact fun b _ hr => hr.drop _

variable [MathEngine σ] [Plotter ρ σ]

omit [MathEngine σ] [Plotter ρ σ] in
/-- The blocks in the record after a step are those that are open then.  One that was not
there before was opened by the step. -/
theorem Tracks.blocks_after {n i : Nat} {calculate : Bool} {form : LineForm} {o : Origins}
    {s : Pass σ ρ} {blocks : List Repetition} (h : Tracks n o s) (depth : Nat)
    (hchange : Pass.BlockChange calculate form i s blocks) :
    (o.after n form depth blocks.length).blocks.map (fun b => b.groups.length) =
        blocks.map Repetition.groups ∧
      ∀ b ∈ (o.after n form depth blocks.length).blocks,
        b ∈ o.blocks ∨ form.opensGroup = false ∧ b = ⟨n, o.groups⟩ := by
  have hcount : o.blocks.length = s.loops.blocks.length := by
    simpa using congrArg List.length h.blocks
  have hmap := h.blocks
  cases hchange with
  | stay =>
    rw [blocks_after_stay hcount]
    exact ⟨hmap, fun b hb => .inl hb⟩
  | @enter argument count hform =>
    rw [blocks_after_enter (by simp [hcount])]
    refine ⟨?_, ?_⟩
    · rw [List.map_cons, List.map_cons, hmap, h.depth]
      rfl
    · intro b hb
      rcases List.mem_cons.mp hb with rfl | hb
      · exact .inr ⟨by rw [hform]; rfl, rfl⟩
      · exact .inl hb
  | @close argument f rest hform _ _ hblocks =>
    rw [hblocks] at hcount hmap
    rw [blocks_after_close (by simp [hcount])]
    refine ⟨?_, fun b hb => .inl (List.mem_of_mem_tail hb)⟩
    rw [List.map_tail, hmap]
    rfl
  | @stop f rest hblocks =>
    rw [hblocks] at hcount hmap
    rw [blocks_after_stay (by simpa using hcount)]
    exact ⟨hmap, fun b hb => .inl hb⟩
  | @again f g rest hblocks hagain =>
    obtain ⟨-, hgroups, -⟩ := Loops.again?_eq_some hagain
    rw [hblocks] at hcount hmap
    rw [blocks_after_stay (by simpa using hcount)]
    refine ⟨?_, fun b hb => .inl hb⟩
    rw [hmap, List.map_cons, List.map_cons, hgroups]

/-- A step that goes on keeps the record in agreement with the state. -/
theorem Tracks.go {n i j : Nat} {o : Origins} {line : Line} {s t : Pass σ ρ}
    (h : Tracks n o s) (hgo : Pass.follow line i (s.step true line i) = .go j t) :
    Tracks (n + 1) (o.after n line.form t.conditions.depth t.loops.blocks.length) t := by
  obtain ⟨-, hloops, hconditions⟩ := Pass.follow_go hgo
  have hdepth := Pass.depth_step true line i s
  have hchange := Pass.blocks_step true line i s
  rw [← hconditions] at hdepth
  rw [← hloops] at hchange
  obtain ⟨hlength, hdescending, hearlier, hremains⟩ :=
    h.groups_after t.loops.blocks.length hdepth
  obtain ⟨hmap, hfrom⟩ := h.blocks_after t.conditions.depth hchange
  refine ⟨hlength, hmap, hdescending, hearlier, ?_, ?_⟩
  · intro b hb
    rcases hfrom b hb with hb | ⟨-, rfl⟩
    · obtain ⟨hordered, hstep⟩ := h.ordered b hb
      exact ⟨hordered, by omega⟩
    · exact ⟨⟨h.descending, h.earlier⟩, Nat.lt_succ_self n⟩
  · intro b hb
    rcases hfrom b hb with hb | ⟨hform, rfl⟩
    · exact hremains b (h.ordered b hb).2 (h.remains b hb)
    · -- a block that is new has all its groups around it
      rw [groups_after_close hform]
      exact (BlockOrigin.Remains.self ⟨n, o.groups⟩).drop _

end Origins

/-! ### A whole pass -/

variable {σ ρ : Type} [MathEngine σ] [Plotter ρ σ]

/-- Where all branches are taken, `#loop` compares the number of open groups with that of
the innermost block. -/
theorem Pass.outcome_loop {s : Pass σ ρ} {line : Line} {i : Nat} {argument : List Char}
    {f : Repetition} {rest : List Repetition} (hform : line.form = .loop .closing argument)
    (htaken : s.conditions.isTaken = true) (hblocks : s.loops.blocks = f :: rest) :
    (s.step true line i).1 =
      if s.conditions.depth = f.groups then .ok (flowTo (f.again?.map Repetition.bodyStart))
      else .error (.structural .entangled) := by
  obtain ⟨text, form⟩ := line
  obtain rfl : form = _ := hform
  show (s.closeLoop (s.visit true ⟨text, _⟩ i)).1 = _
  rw [closeLoop, if_neg (by simp [visit]), if_pos htaken, Loops.close, hblocks]
  dsimp only
  by_cases hgroups : s.conditions.depth = f.groups
  · rw [if_pos hgroups, if_neg (by simp [hgroups])]
    rcases f.again? with _ | g
    · rfl
    · rfl
  · rw [if_neg hgroups, if_pos fun h => hgroups h.symm]
    rfl

/-- A place of a pass: a position, the state there, and the record kept on the way. -/
structure Pass.Station (σ ρ : Type) where
  index : Nat
  state : Pass σ ρ
  origins : Origins

/-- The next place of a pass after a number of steps, if it goes on. -/
def Pass.Station.next (lines : Array Line) (steps : Nat) (p : Pass.Station σ ρ) :
    Option (Pass.Station σ ρ) :=
  match lines[p.index]?, p.state.tick true lines p.index with
  | some line, .go index state =>
    some ⟨index, state, p.origins.after steps line.form state.conditions.depth
      state.loops.blocks.length⟩
  | _, _ => none

/-- The next place is where the line of a place leads, and the record notes that line. -/
theorem Pass.Station.next_eq_some {lines : Array Line} {n : Nat} {p p' : Pass.Station σ ρ}
    (h : p.next lines n = some p') :
    ∃ line, lines[p.index]? = some line ∧
      p.state.tick true lines p.index = .go p'.index p'.state ∧
      Pass.follow line p.index (p.state.step true line p.index) = .go p'.index p'.state ∧
      p'.origins = p.origins.after n line.form p'.state.conditions.depth
        p'.state.loops.blocks.length := by
  rw [next] at h
  split at h
  · next line index state hl ht =>
    cases h
    obtain ⟨line', hl', -, hgo⟩ := Pass.tick_go ht
    rw [hl] at hl'
    obtain rfl := Option.some.inj hl'
    exact ⟨line, hl, ht, hgo, rfl⟩
  · cases h

namespace Workbench

/-- The place that a calculating pass over a source comes to after a number of steps. -/
def station (source : String) (inputs : List String) (w : Workbench σ ρ) :
    Nat → Option (Pass.Station σ ρ)
  | 0 => some ⟨0, w.startPass true inputs, .initial⟩
  | n + 1 => (w.station source inputs n).bind (Pass.Station.next (Sheet.lines source) n)

theorem tracks_station {source : String} {inputs : List String} {w : Workbench σ ρ} {n : Nat}
    {p : Pass.Station σ ρ} (hp : w.station source inputs n = some p) :
    p.origins.Tracks n p.state := by
  induction n generalizing p with
  | zero =>
    cases hp
    exact Origins.tracks_start inputs _ w
  | succ n ih =>
    obtain ⟨q, hq, hnext⟩ := Option.bind_eq_some_iff.mp hp
    obtain ⟨line, -, -, hgo, horigins⟩ := Pass.Station.next_eq_some hnext
    rw [horigins]
    exact (ih hq).go hgo

/-- **What a `#loop` says about the groups**, in every sheet.  Where all branches are taken
and a block is open, `#loop` is accepted exactly if as many groups are open as when the block
was opened, and is reported as entangled otherwise.  If it is accepted, the groups around the
block that were closed since have been replaced one for one, each by a group that was opened
later than the block; so the open groups are those around the block exactly if none of these
was closed, and then no group that was opened since is still open. -/
theorem accepted_loop_groups (source : String) (inputs : List String) (w : Workbench σ ρ)
    {n : Nat} {p : Pass.Station σ ρ} {line : Line} {argument : List Char}
    (hp : w.station source inputs n = some p) (hform : line.form = .loop .closing argument)
    (htaken : p.state.conditions.isTaken = true) (hblocks : p.state.loops.blocks ≠ []) :
    ∃ b outer, p.origins.blocks = b :: outer ∧
      ((∃ flow, (p.state.step true line p.index).1 = .ok flow) ↔
        p.origins.groups.length = b.groups.length) ∧
      ((p.state.step true line p.index).1 = .error (.structural .entangled) ↔
        p.origins.groups.length ≠ b.groups.length) ∧
      (p.origins.groups.length = b.groups.length →
        (∃ opened closed kept, p.origins.groups = opened ++ kept ∧ b.groups = closed ++ kept ∧
          opened.length = closed.length ∧ (∀ g ∈ opened, b.step < g) ∧
          ∀ g ∈ closed, g ∉ p.origins.groups) ∧
        (p.origins.groups = b.groups ↔ ∀ g ∈ b.groups, g ∈ p.origins.groups)) := by
  have htracks := tracks_station hp
  obtain ⟨f, rest, hf⟩ := List.exists_cons_of_ne_nil hblocks
  have hmap := htracks.blocks
  rw [hf] at hmap
  obtain ⟨b, outer, hb, hgroups, -⟩ := List.map_eq_cons_iff.mp hmap
  have hmem : b ∈ p.origins.blocks := by
    rw [hb]
    exact List.mem_cons_self
  have houtcome := Pass.outcome_loop (i := p.index) hform htaken hf
  rw [← hgroups, ← htracks.depth] at houtcome
  refine ⟨b, outer, hb, ?_, ?_, ?_⟩
  · rw [houtcome]
    by_cases hlength : p.origins.groups.length = b.groups.length
    · rw [if_pos hlength]
      exact iff_of_true ⟨_, rfl⟩ hlength
    · rw [if_neg hlength]
      exact iff_of_false (by simp) hlength
  · rw [houtcome]
    by_cases hlength : p.origins.groups.length = b.groups.length
    · rw [if_pos hlength]
      exact iff_of_false (by simp) (by simpa using hlength)
    · rw [if_neg hlength]
      exact iff_of_true rfl hlength
  · intro hlength
    have hordered := (htracks.ordered b hmem).1
    have hremains := htracks.remains b hmem
    exact ⟨hremains.replaced hordered hlength, hremains.eq_iff hordered hlength⟩

/-- A block inside a group, and a `#loop` inside the same group: the groups are the same. -/
theorem accepted_loop_groups_nested :
    ∃ p b, fresh.station "#if 1\n#repeat 2\n#loop\n#end if" [] 2 = some p ∧
      p.origins.blocks = [b] ∧ b.groups = [0] ∧ p.origins.groups = b.groups := by
  have hstation : ∃ p ∈ fresh.station "#if 1\n#repeat 2\n#loop\n#end if" [] 2,
      p.state.conditions.isTaken = true ∧ p.state.loops.blocks ≠ [] ∧
      p.origins = ⟨[0], [⟨1, [0]⟩]⟩ := by
    decide +kernel
  obtain ⟨p, hp, htaken, hblocks, horigins⟩ := hstation
  have hform : (⟨"#loop".toList, .loop .closing []⟩ : Line).form = .loop .closing [] := rfl
  obtain ⟨b, outer, hb, -, -, hsame⟩ := accepted_loop_groups _ _ _ hp hform htaken hblocks
  obtain ⟨rfl, rfl⟩ : b = ⟨1, [0]⟩ ∧ outer = [] := by
    rw [horigins] at hb
    cases hb
    exact ⟨rfl, rfl⟩
  refine ⟨p, ⟨1, [0]⟩, hp, hb, rfl, ?_⟩
  refine (hsame ?_).2.mpr ?_
  · rw [horigins]
  · rw [horigins]
    exact fun g hg => hg

/-- A sheet in which the group around a block is closed, and another one opened, before the
`#loop`. -/
def overlapping : String :=
  "#if 1\n#repeat 2\n#end if\n#if 1\n#loop\n#end if"

/-- The `#loop` of `overlapping` is accepted, although the group around its block was closed
and another one is open. -/
theorem overlap_unnoticed :
    ∃ p, fresh.station overlapping [] 4 = some p ∧
      (Sheet.lines overlapping)[p.index]? = some ⟨"#loop".toList, .loop .closing []⟩ ∧
      p.state.conditions.isTaken = true ∧
      (p.state.step true ⟨"#loop".toList, .loop .closing []⟩ p.index).1 = .ok (.jump 2) ∧
      p.origins = ⟨[3], [⟨1, [0]⟩]⟩ := by
  have hstation : ∃ p ∈ fresh.station overlapping [] 4,
      (Sheet.lines overlapping)[p.index]? = some ⟨"#loop".toList, .loop .closing []⟩ ∧
      p.state.conditions.isTaken = true ∧
      p.state.loops.blocks = [⟨1, 2, 1, 1⟩] ∧ p.state.conditions.depth = 1 ∧
      p.origins = ⟨[3], [⟨1, [0]⟩]⟩ := by
    decide +kernel
  obtain ⟨p, hp, hl, htaken, hblocks, hdepth, horigins⟩ := hstation
  refine ⟨p, hp, hl, htaken, ?_, horigins⟩
  rw [Pass.outcome_loop rfl htaken hblocks, if_pos hdepth]
  rfl

end Workbench

end Worksheet
