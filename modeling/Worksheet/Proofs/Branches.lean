/-
Which branches are taken.

The state of the groups keeps the active level as a number, and only the branch at that
level decides whether a line is shown.  The number is no freedom of the state: it is the
deepest level all of whose enclosing branches are taken (`Conditions.Sound`), as every
operation keeps it.  So a line is shown exactly when every open branch is taken
(`Conditions.isTaken_eq`), and the level need not be looked at any more.

* `Conditions.Sound` — the active level is the one that the branches determine;
* `Conditions.isTaken_eq` — what the active branch decides, without the active level;
* `Conditions.branches_closeTo` — closing groups leaves the branches around them.
-/
import Worksheet.Condition
import Mathlib.Data.List.Basic

namespace Worksheet.Conditions

/-- The deepest level all of whose enclosing branches are taken, given the branches
around the current one. -/
def level : List Branch → Nat
  | [] => 0
  | outer :: rest =>
    if (outer :: rest).all Branch.taken then rest.length + 1 else level rest

theorem level_le (enclosing : List Branch) : level enclosing ≤ enclosing.length := by
  induction enclosing with
  | nil => exact Nat.le_refl 0
  | cons outer rest ih =>
    rw [level]
    split
    · exact Nat.le_refl _
    · exact Nat.le_succ_of_le ih

theorem level_of_all {enclosing : List Branch} (h : enclosing.all Branch.taken = true) :
    level enclosing = enclosing.length := by
  cases enclosing with
  | nil => rfl
  | cons outer rest =>
    rw [level, if_pos h]
    rfl

/-- The level is the outermost one only if all enclosing branches are taken. -/
theorem lt_level_iff (outer : Branch) (rest : List Branch) :
    rest.length < level (outer :: rest) ↔ (outer :: rest).all Branch.taken = true := by
  constructor
  · intro h
    by_contra hall
    rw [level, if_neg hall] at h
    have hle := level_le rest
    omega
  · intro hall
    rw [level_of_all hall]
    exact Nat.lt_succ_self _

/-- The branch at the level is taken exactly when all branches are. -/
theorem taken_at_level (current : Branch) (enclosing : List Branch) :
    (current :: enclosing)[enclosing.length - level enclosing]?.map Branch.taken =
      some ((current :: enclosing).all Branch.taken) := by
  induction enclosing generalizing current with
  | nil => simp [level]
  | cons outer rest ih =>
    by_cases hall : (outer :: rest).all Branch.taken = true
    · rw [level_of_all hall, Nat.sub_self, List.all_cons, hall]
      simp
    · have hlevel : level (outer :: rest) = level rest := by
        rw [level, if_neg hall]
      have hle := level_le rest
      have hindex : (outer :: rest).length - level (outer :: rest) =
          rest.length - level rest + 1 := by
        rw [hlevel, List.length_cons]
        omega
      rw [hindex, List.getElem?_cons_succ, ih outer, List.all_cons (a := current)]
      simp only [Bool.not_eq_true] at hall
      rw [hall, Bool.and_false]

/-- The active level is the deepest one all of whose enclosing branches are taken. -/
def Sound (s : Conditions) : Prop :=
  s.active = level s.enclosing

/-- In a sound state, a line is shown exactly when all open branches are taken. -/
theorem isTaken_eq {s : Conditions} (h : s.Sound) :
    s.isTaken = s.branches.all Branch.taken := by
  have hlevel := taken_at_level s.current s.enclosing
  have hget : s.branches[s.depth - s.active]? = some s.activeBranch := by
    rw [activeBranch]
    exact List.getElem?_eq_getElem _
  rw [show s.depth - s.active = s.enclosing.length - level s.enclosing by rw [h]; rfl,
    show s.branches = s.current :: s.enclosing from rfl] at hget
  rw [hget] at hlevel
  exact Option.some.inj hlevel

/-! ### Every operation keeps a state sound -/

theorem sound_initial : initial.Sound := rfl

theorem Sound.push {s : Conditions} (h : s.Sound) : s.push.Sound := by
  show (if s.isTaken then s.active + 1 else s.active) = level s.branches
  rw [isTaken_eq h]
  unfold level branches
  dsimp only
  split
  · next hall =>
    have htail : s.enclosing.all Branch.taken = true := by
      rw [List.all_cons, Bool.and_eq_true] at hall
      exact hall.2
    rw [h, level_of_all htail]
  · exact h

theorem branches_pop {s : Conditions} (h : s.enclosing ≠ []) : s.pop.branches = s.enclosing := by
  rw [pop]
  split
  · next hnil => exact absurd hnil h
  · next outer rest hcons =>
    rw [hcons]
    rfl

/-- Closing a group marks the group around it as matched if that is shown. -/
theorem Sound.matched_pop {s : Conditions} (h : s.Sound) (hne : s.enclosing ≠ []) :
    s.pop.matched = (s.matched || s.enclosing.all Branch.taken) := by
  rw [Conditions.pop]
  split
  · next hnil => exact absurd hnil hne
  · next outer rest hcons =>
    show (s.matched || decide (rest.length < s.active)) = _
    have hactive : decide (rest.length < level (outer :: rest)) =
        (outer :: rest).all Branch.taken := by
      rw [Bool.eq_iff_iff, decide_eq_true_iff]
      exact lt_level_iff outer rest
    rw [h, hcons, hactive]

theorem Sound.pop {s : Conditions} (h : s.Sound) : s.pop.Sound := by
  rw [Conditions.pop]
  split
  · exact h
  · next outer rest hcons =>
    show (if rest.length < s.active then s.active - 1 else s.active) = level rest
    rw [h, hcons]
    have hiff := lt_level_iff outer rest
    split
    · next hlt =>
      have hall := hiff.mp hlt
      have htail : rest.all Branch.taken = true := by
        rw [List.all_cons, Bool.and_eq_true] at hall
        exact hall.2
      rw [level_of_all hall, level_of_all htail]
      rfl
    · next hlt =>
      rw [level, if_neg fun hall => hlt (hiff.mpr hall)]

theorem Sound.change {s : Conditions} (h : s.Sound) (taken : Bool) (kind : BranchKind) :
    (s.change taken kind).Sound := h

theorem Sound.resolve {s : Conditions} (h : s.Sound) (taken : Bool) :
    (s.resolve taken).Sound := h

theorem Sound.waive {s : Conditions} (h : s.Sound) : s.waive.Sound := h

theorem Sound.move {s : Conditions} (h : s.Sound) (word : BranchWord) : (s.move word).Sound := by
  cases word with
  | opening => exact h.push
  | alternative => exact h.change _ _
  | otherwise => exact h.change _ _
  | closing => exact h.pop

/-- What a word makes of the groups, if it can be entered. -/
theorem eq_of_enter {s t : Conditions} {word : BranchWord} (h : s.enter (some word) = .ok t) :
    t = { s.move word with
      pending := word == .opening || word == .alternative
      label := some word } := by
  rw [enter] at h
  rcases hm : s.misplaced word with _ | error
  · rw [hm] at h
    exact (Except.ok.inj h).symm
  · rw [hm] at h
    cases h

theorem Sound.enter {s t : Conditions} (h : s.Sound) {word : Option BranchWord}
    (ht : s.enter word = .ok t) : t.Sound := by
  rcases word with _ | word
  · cases ht
    exact h
  · rw [eq_of_enter ht]
    exact h.move word

/-- A word that does not fit is not reported as one without its condition. -/
theorem enter_ne_emptyCondition (word : Option BranchWord) (s : Conditions) :
    s.enter word ≠ .error .emptyCondition := by
  rcases word with _ | word
  · intro h
    cases h
  · have hmisplaced : s.misplaced word ≠ some .emptyCondition := by
      unfold misplaced
      split
      all_goals simp
    intro h
    rw [enter] at h
    split at h
    · next e he =>
      cases h
      exact hmisplaced he
    · cases h

/-! ### Words that fit -/

theorem enter_of_fits {word : BranchWord} {s : Conditions} (h : s.misplaced word = none) :
    s.enter (some word) =
      .ok { s.move word with
        pending := word == .opening || word == .alternative
        label := some word } := by
  simp only [Conditions.enter, h]

theorem misplaced_of_tested (word : BranchWord) {s : Conditions} (hne : s.enclosing ≠ [])
    (hkind : s.current.kind = .tested) : s.misplaced word = none := by
  obtain ⟨current, enclosing, active, matched, pending, label⟩ := s
  cases enclosing with
  | nil => exact absurd rfl hne
  | cons outer rest =>
    unfold Conditions.misplaced
    dsimp only at hkind ⊢
    rw [hkind]
    cases word with
    | opening => rfl
    | alternative => rfl
    | otherwise => rfl
    | closing => rfl

theorem misplaced_closing {s : Conditions} (hne : s.enclosing ≠ []) :
    s.misplaced .closing = none := by
  obtain ⟨current, enclosing, active, matched, pending, label⟩ := s
  cases enclosing with
  | nil => exact absurd rfl hne
  | cons outer rest => rfl

/-! ### Closing several groups -/

theorem Sound.popTimes {s : Conditions} (h : s.Sound) (n : Nat) : (popTimes n s).Sound := by
  induction n generalizing s with
  | zero => exact h
  | succ n ih => exact ih h.pop

theorem Sound.closeTo {s : Conditions} (h : s.Sound) (depth : Nat) : (s.closeTo depth).Sound :=
  h.popTimes _

theorem branches_popTimes {n : Nat} {s : Conditions} (h : n ≤ s.depth) :
    (popTimes n s).branches = s.branches.drop n := by
  induction n generalizing s with
  | zero => rfl
  | succ n ih =>
    have hne : s.enclosing ≠ [] := by
      intro hnil
      rw [depth, hnil] at h
      exact absurd h (Nat.not_succ_le_zero n)
    have hpop := branches_pop hne
    have hdepth : n ≤ s.pop.depth := by
      have hlen := congrArg List.length hpop
      rw [length_branches] at hlen
      have : s.enclosing.length = s.depth := rfl
      omega
    rw [popTimes, ih hdepth, hpop]
    rfl

/-- Closing the groups beyond a depth leaves the branches up to it. -/
theorem branches_closeTo {s : Conditions} {home : List Branch} {depth : Nat}
    (h : home <:+ s.branches) (hdepth : home.length = depth + 1) :
    (s.closeTo depth).branches = home := by
  have hle := h.length_le
  rw [length_branches] at hle
  show (popTimes (s.depth - depth) s).branches = home
  rw [branches_popTimes (Nat.sub_le _ _)]
  have hdrop := List.suffix_iff_eq_drop.mp h
  rw [length_branches, hdepth] at hdrop
  rw [hdrop]
  congr 1
  omega

end Worksheet.Conditions
