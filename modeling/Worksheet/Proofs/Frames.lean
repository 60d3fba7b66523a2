/-
The stack of branches.

The branches of the open groups form a stack with an index into it, the active level.
`Frames` is that stack as such: nothing about it keeps the index inside the stack or the
root on it, so an operation that finds nothing where it reads, or would take the root away,
has no result.  Fed with operations in any order it never gets there, since the active level
is the deepest one all of whose enclosing branches are taken (`Conditions.Sound`), whether
conditions are settled when one is pending or at any other time.

* `Frames` — the stack with its index, and operations that can fail;
* `Conditions.Operation` — what the groups can be asked to do;
* `Frames.onStack_frames` — the stack does what the groups do, and does not fail;
* `Conditions.stack_invariant` — what holds after any operations.
-/
import Worksheet.Proofs.Branches

namespace Worksheet

/-- A stack of branches with an index into it. -/
structure Frames where
  /-- The branches, the root first. -/
  list : List Branch
  /-- The index of the active branch. -/
  active : Nat
  matched : Bool
  pending : Bool

namespace Frames

/-- Only the root. -/
def initial : Frames :=
  ⟨[⟨true, .root⟩], 0, false, false⟩

/-- Whether the active branch is taken, if there is a branch at that index. -/
def isTaken? (f : Frames) : Option Bool :=
  f.list[f.active]?.map Branch.taken

/-- Puts a branch on top; the index moves up if the active branch is taken. -/
def push? (f : Frames) : Option Frames :=
  f.isTaken?.map fun taken =>
    { f with
      list := f.list ++ [⟨true, .tested⟩]
      active := if taken then f.active + 1 else f.active
      matched := if taken then false else f.matched }

/-- Takes the branch on top away, which must not be the root; an index that pointed to it
moves down. -/
def pop? (f : Frames) : Option Frames :=
  if f.list.length ≤ 1 then none
  else if f.list.length ≤ f.active + 1 then
    some { f with list := f.list.dropLast, active := f.active - 1, matched := true }
  else some { f with list := f.list.dropLast }

/-- Takes a number of branches away. -/
def popTimes? : Nat → Frames → Option Frames
  | 0, f => some f
  | n + 1, f => f.pop?.bind (popTimes? n)

/-- Replaces the branch on top, if there is one. -/
def change? (taken : Bool) (kind : BranchKind) (f : Frames) : Option Frames :=
  f.list.getLast?.map fun _ => { f with list := f.list.dropLast ++ [⟨taken, kind⟩] }

/-- Settles whether the branch on top is taken. -/
def resolve? (taken : Bool) (f : Frames) : Option Frames :=
  f.list.getLast?.bind fun top =>
    (f.change? taken top.kind).map fun g =>
      { g with matched := g.matched || taken, pending := false }

/-- Settles the branch on top by the value of a condition. -/
def judge? (value : Complex) (f : Frames) : Option Frames :=
  if !value.isReal then f.resolve? false
  else if !value.re.isFinite then f.resolve? false
  else f.resolve? (Conditions.truthThreshold < value.re.abs)

/-- Whether a branch word has no place in a stack of some depth, given the branch on
top. -/
def misfits (word : BranchWord) (depth : Nat) (top : Branch) : Bool :=
  (word != .opening && depth == 0) ||
    (top.kind == .otherwise && (word == .otherwise || word == .alternative))

/-- What a branch word does to the stack. -/
def move? (word : BranchWord) (f : Frames) : Option Frames :=
  match word with
  | .opening => f.push?
  | .alternative => f.change? true .tested
  | .otherwise => f.change? (!f.matched) .otherwise
  | .closing => f.pop?

/-- Meets the branch word of a line; one that has no place changes nothing. -/
def enter? (word : Option BranchWord) (f : Frames) : Option Frames :=
  match word with
  | none => some f
  | some word =>
    f.list.getLast?.bind fun top =>
      if misfits word (f.list.length - 1) top then some f
      else
        (f.move? word).map fun g =>
          { g with pending := word == .opening || word == .alternative }

/-- Takes the branches beyond a depth away. -/
def closeTo? (depth : Nat) (f : Frames) : Option Frames :=
  (popTimes? (f.list.length - 1 - depth) f).map fun g => { g with pending := false }

end Frames

namespace Conditions

/-- What the open groups can be asked to do. -/
inductive Operation where
  | enter (word : Option BranchWord)
  | judge (value : Complex)
  | reject
  | waive
  | closeTo (depth : Nat)

/-- The groups after an operation; a branch word that does not fit changes nothing. -/
def Operation.apply (s : Conditions) : Operation → Conditions
  | .enter word =>
    match s.enter word with
    | .ok t => t
    | .error _ => s
  | .judge value => (s.judge value).2
  | .reject => s.reject
  | .waive => s.waive
  | .closeTo depth => s.closeTo depth

/-- The same operation on the stack of branches as such. -/
def Operation.onStack (f : Frames) : Operation → Option Frames
  | .enter word => f.enter? word
  | .judge value => f.judge? value
  | .reject => f.resolve? false
  | .waive => some { f with pending := false }
  | .closeTo depth => f.closeTo? depth

/-- The groups after some operations. -/
def after (ops : List Operation) : Conditions :=
  ops.foldl Operation.apply initial

/-- The branches of the groups as a stack, with the active level as its index. -/
def frames (s : Conditions) : Frames :=
  ⟨s.branches.reverse, s.active, s.matched, s.pending⟩

/-- Whether an operation settles the current branch. -/
def Operation.settles : Operation → Bool
  | .judge _ => true
  | .reject => true
  | _ => false

/-- From some groups on, branches are settled only where one is pending. -/
def Guarded (s : Conditions) : List Operation → Prop
  | [] => True
  | op :: ops => (op.settles = true → s.pending = true) ∧ Guarded (op.apply s) ops

/-! ### The active level -/

variable {s t : Conditions}

/-- The active level is one of the levels. -/
theorem Sound.active_le (h : s.Sound) : s.active ≤ s.depth := by
  rw [h]
  exact level_le s.enclosing

/-- The branches below the level are taken. -/
theorem taken_below_level {enclosing : List Branch} {i : Nat} {b : Branch}
    (hi : i < level enclosing) (hb : enclosing.reverse[i]? = some b) : b.taken = true := by
  induction enclosing with
  | nil => simp [level] at hi
  | cons outer rest ih =>
    by_cases hall : (outer :: rest).all Branch.taken = true
    · have hmem : b ∈ (outer :: rest).reverse := List.mem_of_getElem? hb
      rw [List.mem_reverse] at hmem
      exact List.all_eq_true.mp hall b hmem
    · rw [level, if_neg hall] at hi
      have hle := level_le rest
      rw [List.reverse_cons, List.getElem?_append_left (by simp; omega)] at hb
      exact ih hi hb

theorem Sound.taken_below (h : s.Sound) {i : Nat} {b : Branch} (hi : i < s.active)
    (hb : s.frames.list[i]? = some b) : b.taken = true := by
  have hle := h.active_le
  rw [h] at hi hle
  have hdepth : s.depth = s.enclosing.length := rfl
  refine taken_below_level hi ?_
  rw [← hb]
  show _ = (s.current :: s.enclosing).reverse[i]?
  rw [List.reverse_cons, List.getElem?_append_left (by simp; omega)]

/-- Where lines are shown, the active branch is the innermost one. -/
theorem Sound.active_eq (h : s.Sound) (htaken : s.isTaken = true) : s.active = s.depth := by
  rw [isTaken_eq h, branches, List.all_cons, Bool.and_eq_true] at htaken
  rw [h, level_of_all htaken.2]
  rfl

theorem Sound.apply (h : s.Sound) (op : Operation) : (op.apply s).Sound := by
  cases op with
  | enter word =>
    rw [Operation.apply]
    split
    · next ht => exact h.enter ht
    · exact h
  | judge value =>
    rw [Operation.apply, judge]
    split
    · exact h.resolve false
    split
    · exact h.resolve false
    · exact h.resolve _
  | reject => exact h.resolve false
  | waive => exact h.waive
  | closeTo depth => exact h.closeTo depth

end Conditions

/-! ### The stack does what the groups do -/

namespace Frames

open Conditions

variable {s : Conditions}

theorem getLast?_frames (s : Conditions) : s.frames.list.getLast? = some s.current := by
  simp [Conditions.frames, Conditions.branches]

theorem length_frames (s : Conditions) : s.frames.list.length = s.depth + 1 := by
  simp [Conditions.frames, Conditions.length_branches]

theorem dropLast_frames (s : Conditions) : s.frames.list.dropLast = s.enclosing.reverse := by
  simp [Conditions.frames, Conditions.branches]

/-- The index points to the active branch. -/
theorem isTaken?_frames (h : s.Sound) : s.frames.isTaken? = some s.isTaken := by
  have hle := h.active_le
  have hget : s.frames.list[s.active]? = some s.activeBranch := by
    show s.branches.reverse[s.active]? = _
    rw [List.getElem?_reverse (by rw [length_branches]; omega), length_branches]
    rw [show s.depth + 1 - 1 - s.active = s.depth - s.active by omega, activeBranch]
    exact List.getElem?_eq_getElem _
  show s.frames.list[s.active]?.map Branch.taken = _
  rw [hget]
  rfl

theorem push?_frames (h : s.Sound) : s.frames.push? = some s.push.frames := by
  rw [push?, isTaken?_frames h]
  simp [Conditions.frames, Conditions.branches, Conditions.push]

theorem pop?_frames (h : 0 < s.depth) : s.frames.pop? = some s.pop.frames := by
  obtain ⟨outer, rest, hcons⟩ : ∃ outer rest, s.enclosing = outer :: rest :=
    List.exists_cons_of_length_pos h
  have hlength := length_frames s
  have hdepth : s.depth = rest.length + 1 := by
    rw [depth, hcons]
    rfl
  have hactive : s.frames.active = s.active := rfl
  have hdrop := dropLast_frames s
  rw [hcons] at hdrop
  rw [pop?, if_neg (by omega), hdrop, Conditions.pop, hcons]
  by_cases hlevel : rest.length < s.active
  · rw [if_pos (by omega)]
    simp [Conditions.frames, Conditions.branches, hlevel]
  · rw [if_neg (by omega)]
    simp [Conditions.frames, Conditions.branches, hlevel]

theorem popTimes?_frames {n : Nat} (h : n ≤ s.depth) :
    popTimes? n s.frames = some (Conditions.popTimes n s).frames := by
  induction n generalizing s with
  | zero => rfl
  | succ n ih =>
    have hne : s.enclosing ≠ [] := by
      intro hnil
      rw [depth, hnil, List.length_nil] at h
      omega
    have hpop : n ≤ s.pop.depth := by
      have hlength := congrArg List.length (branches_pop hne)
      rw [length_branches, show s.enclosing.length = s.depth from rfl] at hlength
      omega
    rw [popTimes?, pop?_frames (by omega), Conditions.popTimes]
    exact ih hpop

theorem change?_frames (taken : Bool) (kind : BranchKind) (s : Conditions) :
    s.frames.change? taken kind = some (s.change taken kind).frames := by
  rw [change?, getLast?_frames, dropLast_frames]
  simp [Conditions.frames, Conditions.branches, Conditions.change]

theorem resolve?_frames (taken : Bool) (s : Conditions) :
    s.frames.resolve? taken = some (s.resolve taken).frames := by
  rw [resolve?, getLast?_frames, Option.bind_some, change?_frames]
  simp [Conditions.frames, Conditions.branches, Conditions.change, Conditions.resolve]

theorem judge?_frames (value : Complex) (s : Conditions) :
    s.frames.judge? value = some (s.judge value).2.frames := by
  rw [judge?, Conditions.judge]
  split
  · exact resolve?_frames false s
  split
  · exact resolve?_frames false s
  · exact resolve?_frames _ s

/-- A branch word that has no place in the stack is one that does not fit the groups. -/
theorem misfits_frames (word : BranchWord) (s : Conditions) :
    misfits word (s.frames.list.length - 1) s.current = (s.misplaced word).isSome := by
  rw [length_frames]
  obtain ⟨⟨taken, kind⟩, enclosing, active, matched, pending, label⟩ := s
  rcases enclosing with _ | ⟨outer, rest⟩
  · cases word <;> cases kind <;> rfl
  · cases word <;> cases kind <;> rfl

theorem move?_frames {word : BranchWord} (h : s.Sound) (hfits : s.misplaced word = none) :
    s.frames.move? word = some (s.move word).frames := by
  cases word with
  | opening => exact push?_frames h
  | alternative => exact change?_frames true .tested s
  | otherwise => exact change?_frames (!s.matched) .otherwise s
  | closing =>
    refine pop?_frames (List.length_pos_iff.mpr ?_)
    intro hnil
    simp [Conditions.misplaced, hnil] at hfits

/-- An operation finds on the stack what it reads there, and does to the stack what it does to
the groups. -/
theorem onStack_frames (h : s.Sound) (op : Operation) :
    op.onStack s.frames = some (op.apply s).frames := by
  cases op with
  | enter word =>
    rw [Operation.onStack, Operation.apply]
    rcases word with _ | word
    · rfl
    rw [enter?, getLast?_frames, Option.bind_some, misfits_frames, Conditions.enter]
    rcases hfits : s.misplaced word with _ | cause
    · rw [Option.isSome_none, if_neg Bool.false_ne_true, move?_frames h hfits]
      rfl
    · rfl
  | judge value => exact judge?_frames value s
  | reject => exact resolve?_frames false s
  | waive => rfl
  | closeTo depth =>
    have hcount : s.frames.list.length - 1 - depth = s.depth - depth := by
      rw [length_frames]
      omega
    rw [Operation.onStack, closeTo?, hcount, popTimes?_frames (by omega)]
    rfl

end Frames

namespace Conditions

variable {s : Conditions}

/-! ### The root, and what is pending -/

/-- The root is at the bottom and taken, and a pending condition belongs to a group that is
before its `#else`. -/
structure Rooted (s : Conditions) : Prop where
  root : s.branches.getLast? = some ⟨true, .root⟩
  pending : s.pending = true → s.enclosing ≠ [] ∧ s.current.kind = .tested

theorem rooted_initial : initial.Rooted := by
  constructor
  · rfl
  · simp [initial]

/-- Inside a group, the current branch may change. -/
theorem Rooted.root_of_enclosing (h : s.Rooted) (hne : s.enclosing ≠ []) (b : Branch) :
    (b :: s.enclosing).getLast? = some ⟨true, .root⟩ := by
  have hroot := h.root
  rw [branches, List.getLast?_cons_of_ne_nil hne] at hroot
  rw [List.getLast?_cons_of_ne_nil hne]
  exact hroot

theorem root_popTimes (n : Nat) (h : s.branches.getLast? = some ⟨true, .root⟩) :
    (popTimes n s).branches.getLast? = some ⟨true, .root⟩ := by
  induction n generalizing s with
  | zero => exact h
  | succ n ih =>
    apply ih
    by_cases hne : s.enclosing = []
    · simpa [pop, hne] using h
    · rw [branches_pop hne]
      rwa [branches, List.getLast?_cons_of_ne_nil hne] at h

/-- A branch word other than `#if` fits only inside a group. -/
theorem enclosing_of_fits {word : BranchWord} (hword : word ≠ .opening)
    (hfits : s.misplaced word = none) : s.enclosing ≠ [] := by
  intro hnil
  cases word with
  | opening => exact hword rfl
  | alternative => simp [misplaced, hnil] at hfits
  | otherwise => simp [misplaced, hnil] at hfits
  | closing => simp [misplaced, hnil] at hfits

theorem Rooted.enter (h : s.Rooted) {word : BranchWord} (hfits : s.misplaced word = none) :
    Rooted { s.move word with
      pending := word == .opening || word == .alternative
      label := some word } := by
  cases word with
  | opening =>
    refine ⟨h.root, ?_⟩
    intro _
    exact ⟨List.cons_ne_nil _ _, rfl⟩
  | alternative =>
    have hne := enclosing_of_fits (by simp) hfits
    refine ⟨h.root_of_enclosing hne _, ?_⟩
    intro _
    exact ⟨hne, rfl⟩
  | otherwise =>
    have hne := enclosing_of_fits (by simp) hfits
    exact ⟨h.root_of_enclosing hne _, by simp⟩
  | closing => exact ⟨root_popTimes 1 h.root, by simp⟩

/-- Settling the branch of a group leaves the root alone. -/
theorem Rooted.resolve (h : s.Rooted) (hpending : s.pending = true) (taken : Bool) :
    (s.resolve taken).Rooted := by
  obtain ⟨hne, -⟩ := h.pending hpending
  exact ⟨h.root_of_enclosing hne _, by simp [Conditions.resolve]⟩

theorem Rooted.apply (h : s.Rooted) {op : Operation}
    (hguard : op.settles = true → s.pending = true) : (op.apply s).Rooted := by
  cases op with
  | enter word =>
    rw [Operation.apply]
    rcases word with _ | word
    · exact ⟨h.root, h.pending⟩
    rw [Conditions.enter]
    rcases hfits : s.misplaced word with _ | cause
    · exact h.enter hfits
    · exact h
  | judge value =>
    have hpending := hguard rfl
    rw [Operation.apply, judge]
    split
    · exact h.resolve hpending false
    split
    · exact h.resolve hpending false
    · exact h.resolve hpending _
  | reject => exact h.resolve (hguard rfl) false
  | waive => exact ⟨h.root, by simp [Operation.apply, waive]⟩
  | closeTo depth =>
    exact ⟨root_popTimes _ h.root, by simp [Operation.apply, closeTo]⟩

/-! ### Any operations -/

theorem Sound.foldl (h : s.Sound) (ops : List Operation) :
    (ops.foldl Operation.apply s).Sound :=
  List.foldlRecOn (motive := Sound) ops Operation.apply h fun _ h op _ => h.apply op

theorem Rooted.foldl (h : s.Rooted) {ops : List Operation} (hguard : s.Guarded ops) :
    (ops.foldl Operation.apply s).Rooted := by
  induction ops generalizing s with
  | nil => exact h
  | cons op ops ih => exact ih (h.apply hguard.1) hguard.2

/-- The stack never fails. -/
theorem foldlM_frames (h : s.Sound) (ops : List Operation) :
    ops.foldlM Operation.onStack s.frames = some (ops.foldl Operation.apply s).frames := by
  induction ops generalizing s with
  | nil => rfl
  | cons op ops ih =>
    rw [List.foldlM_cons, Frames.onStack_frames h]
    exact ih (h.apply op)

/-- **The stack of branches is sound after any operations**, also those that are refused and
those that settle a branch when none is pending.  No operation reads outside the stack or takes
the root away, so it is never empty; the index points into it, to a branch below which all
are taken; and the active branch is taken exactly if all branches are, the active one being the
innermost then.  If branches are settled only where one is pending, the root stays taken, and
what is pending is the branch of a group, before its `#else`. -/
theorem stack_invariant (ops : List Operation) :
    let s := after ops
    let f := s.frames
    ops.foldlM Operation.onStack Frames.initial = some f ∧
    (f.list ≠ [] ∧ f.active ≤ s.depth ∧ f.list.length = s.depth + 1) ∧
    (∀ i < f.active, ∃ b, f.list[i]? = some b ∧ b.taken = true) ∧
    (s.isTaken = true ↔ ∀ b ∈ f.list, b.taken = true) ∧
    (s.isTaken = true → f.active = s.depth) ∧
    (initial.Guarded ops →
      f.list[0]? = some ⟨true, .root⟩ ∧
        (s.pending = true → 1 ≤ s.depth ∧ s.current.kind = .tested)) := by
  have hsound : (after ops).Sound := sound_initial.foldl ops
  have hlength := Frames.length_frames (after ops)
  have hactive := hsound.active_le
  refine ⟨foldlM_frames sound_initial ops, ⟨?_, hactive, hlength⟩, ?_, ?_, hsound.active_eq, ?_⟩
  · apply List.ne_nil_of_length_pos
    omega
  · intro i hi
    have hi' : i < (after ops).active := hi
    have hget := List.getElem?_eq_getElem (show i < (after ops).frames.list.length by omega)
    exact ⟨_, hget, hsound.taken_below hi hget⟩
  · rw [isTaken_eq hsound, List.all_eq_true]
    show _ ↔ ∀ b ∈ (after ops).branches.reverse, b.taken = true
    simp
  · intro hguard
    have hrooted := rooted_initial.foldl hguard
    constructor
    · show (after ops).branches.reverse[0]? = _
      rw [← List.head?_eq_getElem?, List.head?_reverse]
      exact hrooted.root
    · intro hpending
      obtain ⟨hne, hkind⟩ := hrooted.pending hpending
      exact ⟨List.length_pos_iff.mpr hne, hkind⟩

/-- An `#else if` inside a branch that was rejected, with a word before it that does not fit. -/
def nestedInRejected : List Operation :=
  [.enter (some .closing), .enter (some .opening), .reject, .enter (some .opening),
    .enter (some .alternative)]

/-- The words inside the rejected branch leave the active level behind. -/
theorem stack_invariant_nestedInRejected :
    initial.Guarded nestedInRejected ∧ (after nestedInRejected).pending = true ∧
      (after nestedInRejected).frames.list[0]? = some ⟨true, .root⟩ ∧
      (after nestedInRejected).frames.active = 1 ∧ 1 ≤ (after nestedInRejected).depth ∧
      (after nestedInRejected).isTaken = false := by
  have hguard : initial.Guarded nestedInRejected := by
    simp [nestedInRejected, Guarded, Operation.settles, Operation.apply, Conditions.enter,
      misplaced, initial, move, push, isTaken, activeBranch, branches, depth]
  obtain ⟨-, -, -, -, -, hrooted⟩ := stack_invariant nestedInRejected
  have hpending : (after nestedInRejected).pending = true := by decide
  obtain ⟨hroot, hkind⟩ := hrooted hguard
  exact ⟨hguard, hpending, hroot, by decide, (hkind hpending).1, by decide⟩

end Conditions

end Worksheet
