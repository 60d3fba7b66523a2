/-
Nested `#if` groups.

The state holds one branch per open group, the innermost first, above a root
branch that stands for the sheet itself.  Groups may be entered inside a branch
that is not taken; `active` is the deepest level all of whose enclosing branches
were taken when it was entered, and it is the branch at that level that decides
whether a line is shown.

The state is fed one line at a time, because loops move back in the sheet and
meet the same lines again.

* `Conditions.enter` — meets the branch word of a line, or a line without one;
* `Conditions.judge` — settles a condition by its value;
* `Conditions.closeTo` — closes groups without meeting their ends.
-/
import Worksheet.Complex
import Worksheet.Directive
import Worksheet.Fault

namespace Worksheet

/-- The part of a group that a branch belongs to; the root belongs to none. -/
inductive BranchKind where
  | root
  | tested
  | otherwise
  deriving DecidableEq, Repr

/-- An open branch: whether it is taken, and which part of its group it is. -/
structure Branch where
  taken : Bool
  kind : BranchKind
  deriving DecidableEq, Repr

/-- The open `#if` groups of a pass. -/
structure Conditions where
  /-- The branch of the innermost open group, or the root. -/
  current : Branch
  /-- The branches around it, from the inside out; the last one is the root. -/
  enclosing : List Branch
  /-- The deepest level that was entered while all branches around it were taken. -/
  active : Nat
  /-- Whether a branch of the group at that level has matched. -/
  matched : Bool
  /-- Whether the current branch waits for the value of its condition. -/
  pending : Bool
  /-- The branch word of the line being processed. -/
  label : Option BranchWord
  deriving DecidableEq, Repr

namespace Conditions

/-- No group is open. -/
def initial : Conditions where
  current := ⟨true, .root⟩
  enclosing := []
  active := 0
  matched := false
  pending := false
  label := none

/-- How many groups are open. -/
def depth (s : Conditions) : Nat :=
  s.enclosing.length

/-- All branches, the innermost first and the root last. -/
def branches (s : Conditions) : List Branch :=
  s.current :: s.enclosing

theorem length_branches (s : Conditions) : s.branches.length = s.depth + 1 := rfl

/-- The branch at the active level. -/
def activeBranch (s : Conditions) : Branch :=
  have : s.depth - s.active < s.branches.length := by
    rw [length_branches]
    omega
  s.branches[s.depth - s.active]

/-- Whether the current line lies in a taken branch at every level. -/
def isTaken (s : Conditions) : Bool :=
  s.activeBranch.taken

/-! ### Opening, changing and closing branches -/

/-- Opens a group.  Inside a branch that is not taken, the active level stays
behind. -/
def push (s : Conditions) : Conditions :=
  { s with
    current := ⟨true, .tested⟩
    enclosing := s.branches
    active := if s.isTaken then s.active + 1 else s.active
    matched := if s.isTaken then false else s.matched }

/-- Closes the innermost group.  If it was at the active level, the group around
it becomes active, and that one has matched: its branch was taken. -/
def pop (s : Conditions) : Conditions :=
  match s.enclosing with
  | [] => s
  | outer :: rest =>
    { s with
      current := outer
      enclosing := rest
      active := if rest.length < s.active then s.active - 1 else s.active
      matched := s.matched || rest.length < s.active }

/-- Replaces the current branch. -/
def change (taken : Bool) (kind : BranchKind) (s : Conditions) : Conditions :=
  { s with current := ⟨taken, kind⟩ }

/-- Settles whether the current branch is taken. -/
def resolve (taken : Bool) (s : Conditions) : Conditions :=
  { s with
    current := { s.current with taken := taken }
    matched := s.matched || taken
    pending := false }

/-! ### Lines -/

/-- Why a branch word does not fit the open groups, if it does not. -/
def misplaced (word : BranchWord) (s : Conditions) : Option StructureError :=
  match word, s.enclosing, s.current.kind with
  | .opening, _, _ => none
  | .closing, [], _ => some .unmatchedEndIf
  | .alternative, [], _ => some .missingIf
  | .otherwise, [], _ => some .missingIf
  | .otherwise, _ :: _, .otherwise => some .duplicateElse
  | .alternative, _ :: _, .otherwise => some .elseIfAfterElse
  | _, _ :: _, _ => none

/-- What a branch word that fits does to the branches. -/
def move (word : BranchWord) (s : Conditions) : Conditions :=
  match word with
  | .opening => s.push
  | .alternative => s.change true .tested
  | .otherwise => s.change (!s.matched) .otherwise
  | .closing => s.pop

/-- Meets the branch word of a line.  A line without one only clears the label,
and a word that does not fit changes nothing. -/
def enter (word : Option BranchWord) (s : Conditions) :
    Except StructureError Conditions :=
  match word with
  | none => .ok { s with label := none }
  | some word =>
    match s.misplaced word with
    | some e => .error e
    | none =>
      .ok { s.move word with
        pending := word == .opening || word == .alternative
        label := some word }

/-- Values closer to zero than this count as false. -/
def truthThreshold : Float :=
  1e-12

/-- Settles a pending condition by its value.  A value that is not a finite real
number is an error, and the branch is not taken. -/
def judge (value : Complex) (s : Conditions) :
    Except CalculationError Unit × Conditions :=
  if !value.isReal then (.error .complexCondition, s.resolve false)
  else if !value.re.isFinite then (.error (.invalidCondition value.re), s.resolve false)
  else (.ok (), s.resolve (truthThreshold < value.re.abs))

/-- Settles a pending condition as not taken. -/
def reject (s : Conditions) : Conditions :=
  s.resolve false

/-- Leaves a pending condition without a value, as a preview does. -/
def waive (s : Conditions) : Conditions :=
  { s with pending := false }

/-- Closes a number of groups. -/
def popTimes : Nat → Conditions → Conditions
  | 0, s => s
  | n + 1, s => popTimes n s.pop

/-- Closes the groups that were opened beyond a depth. -/
def closeTo (depth : Nat) (s : Conditions) : Conditions :=
  { popTimes (s.depth - depth) s with pending := false }

end Conditions

/-- The text that labels a branch word. -/
def BranchWord.label : BranchWord → String
  | .opening => "#if "
  | .alternative => "#else if "
  | .otherwise => "#else"
  | .closing => "#end if"

end Worksheet
