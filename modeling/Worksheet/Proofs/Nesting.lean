/-
How the blocks of a sheet nest.

Groups and loops nest as brackets do.  Reading a sheet from its first line on, one keeps
the blocks that are open around the present line: an opening word adds one, the words of
a group and of a loop have to fit the innermost one, and an ending word takes it away.
This needs the lines only; it says nothing about what a pass makes of them.

* `Opener.meet` — what a line does to the blocks around it, if it fits them;
* `Sheet.WellNested` — every line fits, and nothing is open at the end;
* `Sheet.around_bodyStart` — the blocks around the body of a loop, from inside it.
-/
import Worksheet.Sheet.Line
import Mathlib.Data.List.Basic

namespace Worksheet

/-- A block that is open around a line. -/
inductive Opener where
  /-- A group, and whether its `#else` was met. -/
  | group (last : Bool)
  /-- A loop, with the index of its `#repeat`. -/
  | loop (line : Nat)
  deriving DecidableEq, Repr

namespace Opener

/-- The blocks that are open after a line, given those around it, the innermost first;
none if the line does not fit them.  A further test and `#else` need a group without
`#else`, and the ends of the two kinds of block need a block of their kind. -/
def meet (index : Nat) (form : LineForm) (around : List Opener) : Option (List Opener) :=
  match form with
  | .branch .opening _ => some (.group false :: around)
  | .branch .alternative _ =>
    match around with
    | .group false :: outer => some (.group false :: outer)
    | _ => none
  | .branch .otherwise _ =>
    match around with
    | .group false :: outer => some (.group true :: outer)
    | _ => none
  | .branch .closing _ =>
    match around with
    | .group _ :: outer => some outer
    | _ => none
  | .loop .opening _ => some (.loop index :: around)
  | .loop .closing _ =>
    match around with
    | .loop _ :: outer => some outer
    | _ => none
  | _ => some around

/-! What the blocks around a line are, if it fits them. -/

theorem meet_alternative {index : Nat} {rest : List Char} {around after : List Opener}
    (h : meet index (.branch .alternative rest) around = some after) :
    ∃ outer, around = .group false :: outer ∧ after = .group false :: outer := by
  dsimp only [meet] at h
  split at h
  · next outer =>
    cases h
    exact ⟨outer, rfl, rfl⟩
  · cases h

theorem meet_otherwise {index : Nat} {rest : List Char} {around after : List Opener}
    (h : meet index (.branch .otherwise rest) around = some after) :
    ∃ outer, around = .group false :: outer ∧ after = .group true :: outer := by
  dsimp only [meet] at h
  split at h
  · next outer =>
    cases h
    exact ⟨outer, rfl, rfl⟩
  · cases h

theorem meet_closeGroup {index : Nat} {rest : List Char} {around after : List Opener}
    (h : meet index (.branch .closing rest) around = some after) :
    ∃ last, around = .group last :: after := by
  dsimp only [meet] at h
  split at h
  · next last outer =>
    cases h
    exact ⟨last, rfl⟩
  · cases h

theorem meet_closeLoop {index : Nat} {argument : List Char} {around after : List Opener}
    (h : meet index (.loop .closing argument) around = some after) :
    ∃ line, around = .loop line :: after := by
  dsimp only [meet] at h
  split at h
  · next line outer =>
    cases h
    exact ⟨line, rfl⟩
  · cases h

/-- A loop that is open after a line was open before it, unless the line opened it. -/
theorem suffix_of_meet {index line : Nat} {form : LineForm} {around after outer : List Opener}
    (h : meet index form around = some after) (hloop : .loop line :: outer <:+ after) :
    .loop line :: outer <:+ around ∨ line = index ∧ after = .loop line :: outer := by
  -- apart from `#repeat`, the innermost block after the line, if it is new, is a group
  have hgroup : ∀ {last : Bool} {rest : List Opener},
      .loop line :: outer <:+ .group last :: rest → .loop line :: outer <:+ rest := by
    intro last rest hs
    rcases List.suffix_cons_iff.mp hs with heq | hs
    · cases heq
    · exact hs
  unfold meet at h
  split at h
  · cases h
    exact .inl (hgroup hloop)
  · split at h
    · cases h
      exact .inl hloop
    · cases h
  · split at h
    · next outer' =>
      cases h
      exact .inl ((hgroup hloop).trans (List.suffix_cons _ _))
    · cases h
  · split at h
    · cases h
      exact .inl (hloop.trans (List.suffix_cons _ _))
    · cases h
  · cases h
    rcases List.suffix_cons_iff.mp hloop with heq | hs
    · obtain ⟨hline, rfl⟩ := List.cons.inj heq
      cases hline
      exact .inr ⟨rfl, rfl⟩
    · exact .inl hs
  · split at h
    · cases h
      exact .inl (hloop.trans (List.suffix_cons _ _))
    · cases h
  · cases h
    exact .inl hloop

end Opener

namespace Sheet

/-- The blocks around a position of a sheet; none if some line before it does not fit. -/
def around (lines : Array Line) : Nat → Option (List Opener)
  | 0 => some []
  | i + 1 =>
    match around lines i, lines[i]? with
    | some blocks, some line => Opener.meet i line.form blocks
    | _, _ => none

/-- Every line fits the blocks around it, and every block is closed at the end. -/
def WellNested (lines : Array Line) : Prop :=
  around lines lines.size = some []

instance (lines : Array Line) : Decidable (WellNested lines) :=
  inferInstanceAs (Decidable (_ = _))

theorem around_succ {lines : Array Line} {i : Nat} {after : List Opener}
    (h : around lines (i + 1) = some after) :
    ∃ blocks line, around lines i = some blocks ∧ lines[i]? = some line ∧
      Opener.meet i line.form blocks = some after := by
  rw [around] at h
  split at h
  · next blocks line hb hl => exact ⟨blocks, line, hb, hl, h⟩
  · cases h

theorem around_of_le {lines : Array Line} {i j : Nat} {after : List Opener} (hle : i ≤ j)
    (h : around lines j = some after) : ∃ blocks, around lines i = some blocks := by
  induction j generalizing after with
  | zero =>
    obtain rfl := Nat.le_zero.mp hle
    exact ⟨after, h⟩
  | succ j ih =>
    rcases Nat.lt_or_eq_of_le hle with hlt | rfl
    · obtain ⟨blocks, -, hb, -⟩ := around_succ h
      exact ih (Nat.le_of_lt_succ hlt) hb
    · exact ⟨after, h⟩

/-- Around every position of a well-nested sheet there are blocks that its line fits. -/
theorem WellNested.meet {lines : Array Line} (hn : WellNested lines) {i : Nat} {line : Line}
    (hl : lines[i]? = some line) :
    ∃ blocks after, around lines i = some blocks ∧ around lines (i + 1) = some after ∧
      Opener.meet i line.form blocks = some after := by
  have hlt : i < lines.size := (Array.getElem?_eq_some_iff.mp hl).1
  obtain ⟨after, hafter⟩ := around_of_le (show i + 1 ≤ lines.size by omega) hn
  obtain ⟨blocks, line', hblocks, hl', hm⟩ := around_succ hafter
  rw [hl] at hl'
  obtain rfl := Option.some.inj hl'
  exact ⟨blocks, after, hblocks, hafter, hm⟩

/-- Behind the last line of a well-nested sheet, no block is open. -/
theorem WellNested.around_end {lines : Array Line} (hn : WellNested lines) {i : Nat}
    {blocks : List Opener} (h : around lines i = some blocks) (hi : lines[i]? = none) :
    blocks = [] := by
  -- beyond the end of the sheet nothing is around a position, so this is its end
  have hsize : i = lines.size := by
    have hge : lines.size ≤ i := Array.getElem?_eq_none_iff.mp hi
    rcases Nat.lt_or_eq_of_le hge with hlt | heq
    · obtain ⟨after, hafter⟩ := around_of_le (Nat.succ_le_of_lt hlt) h
      obtain ⟨_, line, _, hl, _⟩ := around_succ hafter
      simp at hl
    · exact heq.symm
  rw [hsize, hn] at h
  exact (Option.some.inj h).symm

/-- Around the first line of a loop's body are the loop and the blocks around it. -/
theorem around_bodyStart {lines : Array Line} {i line : Nat} {blocks outer : List Opener}
    (h : around lines i = some blocks) (hloop : .loop line :: outer <:+ blocks) :
    around lines (line + 1) = some (.loop line :: outer) := by
  induction i generalizing blocks with
  | zero =>
    cases h
    exact absurd (List.eq_nil_of_suffix_nil hloop) (List.cons_ne_nil _ _)
  | succ i ih =>
    obtain ⟨before, l, hb, -, hm⟩ := around_succ h
    rcases Opener.suffix_of_meet hm hloop with hs | ⟨rfl, rfl⟩
    · exact ih hb hs
    · exact h

end Sheet

end Worksheet
