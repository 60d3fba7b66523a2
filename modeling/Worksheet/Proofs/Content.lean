/-
What lines do to the open groups, and which faults they report.

A line that is entered leaves the groups as they are or settles the condition that waits
for its value; it does the latter only where it is live.  Which of the two happens, and
what the line can report, does not depend on its segments.

* `Page.content_of_dead` — a line that is not live;
* `Page.content_conditions` — the groups after any line;
* `Page.content_structural` — the only fault of structure that a line reports once it
  was entered; lines that only touch the page report none.
-/
import Worksheet.Proofs.Branches
import Worksheet.Sheet.Step

namespace Worksheet

theorem Failure.fault_ne_structural (e : Failure) (cause : StructureError) :
    e.fault ≠ .structural cause := by
  cases e with
  | refused => simp [fault]
  | crashed => simp [fault]

namespace Conditions

/-- The condition that waits is settled: the current branch is taken or not, and all
else about the branches stays. -/
def Settled (c d : Conditions) : Prop :=
  d = c.waive ∨ ∃ taken, d = c.resolve taken

theorem Settled.pending {c d : Conditions} (h : c.Settled d) : d.pending = false := by
  rcases h with rfl | ⟨taken, rfl⟩
  · rfl
  · rfl

theorem Settled.branches {c d : Conditions} (h : c.Settled d) :
    ∃ taken, d.branches = ⟨taken, c.current.kind⟩ :: c.enclosing := by
  rcases h with rfl | ⟨taken, rfl⟩
  · exact ⟨c.current.taken, rfl⟩
  · exact ⟨taken, rfl⟩

theorem Settled.sound {c d : Conditions} (h : c.Settled d) (hc : c.Sound) : d.Sound := by
  rcases h with rfl | ⟨taken, rfl⟩
  · exact hc.waive
  · exact hc.resolve taken

theorem judge_settled (value : Complex) (c : Conditions) : c.Settled (c.judge value).2 := by
  rw [judge]
  split
  · exact .inr ⟨_, rfl⟩
  split
  · exact .inr ⟨_, rfl⟩
  · exact .inr ⟨_, rfl⟩

end Conditions

namespace Page

/-- In a calculated sheet, a condition that waits is judged by the value of its line. -/
theorem settle_some {c : Conditions} (hpending : c.pending = true) (value : Complex) :
    settle true (some value) c = c.judge value := by
  rw [settle, hpending]
  rfl

theorem settle_none {c : Conditions} (hpending : c.pending = true) :
    settle true none c = (.ok (), c.reject) := by
  rw [settle, hpending]
  rfl

theorem settle_conditions (calculate : Bool) (value : Option Complex) (c : Conditions) :
    c.pending = false ∧ (settle calculate value c).2 = c ∨
      c.pending = true ∧ c.Settled (settle calculate value c).2 := by
  unfold settle
  rcases hp : c.pending with _ | _
  · exact .inl ⟨rfl, rfl⟩
  · refine .inr ⟨rfl, ?_⟩
    rcases calculate with _ | _
    · exact .inl rfl
    · rcases value with _ | value
      · exact .inr ⟨false, rfl⟩
      · exact Conditions.judge_settled value c

variable {σ ρ : Type} [MathEngine σ]

/-- A line that is not live moves past its input values and does nothing else. -/
theorem content_of_dead {v : Visit} {stopped : Bool} {c : Conditions} (word : Option BranchWord)
    (body : List Char) (p : Page σ ρ) (hv : v.calculate = true)
    (hdead : (c.isTaken && !stopped) = false) :
    p.content v stopped word body c = (.ok (), c, p.skipInputs (placeholderCount v.chars)) := by
  unfold content
  rw [hv, hdead]
  rfl

/-- Only a crash ends the walk over the segments of a line. -/
theorem walk_error {v : Visit} {shows isCondition : Bool} {rest : List Segment}
    {value : Option Complex} {p q : Page σ ρ} {e : Failure}
    (h : p.walk v shows isCondition rest value = (.error e, q)) :
    ∃ payload, e = .crashed payload := by
  induction rest generalizing value p with
  | nil => cases h
  | cons s rest ih =>
    rw [walk] at h
    split at h
    · split at h
      · exact ih h
      · exact ih h
      · cases h
        exact ⟨_, rfl⟩
    · exact ih h

theorem showSegments_error {v : Visit} {word : Option BranchWord} {body : List Char}
    {p q : Page σ ρ} {e : Failure} (h : p.showSegments v word body = (.error e, q)) :
    ∃ payload, e = .crashed payload := by
  rw [showSegments] at h
  dsimp only at h
  split at h
  · next hw =>
    cases h
    exact walk_error hw
  · cases h

/-- Showing a line ends the pass or settles the condition that waits, if one does. -/
theorem showLine_conditions (v : Visit) (word : Option BranchWord) (body : List Char)
    (c : Conditions) (p : Page σ ρ) :
    (∃ fault, (p.showLine v word body c).1 = .error fault ∧ fault.isFatal = true) ∨
      c.pending = false ∧ (p.showLine v word body c).2.1 = c ∨
      c.pending = true ∧ c.Settled (p.showLine v word body c).2.1 := by
  rw [showLine]
  rcases hs : p.showSegments v word body with ⟨e | value, q⟩
  · obtain ⟨payload, rfl⟩ := showSegments_error hs
    exact .inl ⟨_, rfl, rfl⟩
  · exact .inr (settle_conditions v.calculate value c)

theorem showLine_structural {v : Visit} {word : Option BranchWord} {body : List Char}
    {c : Conditions} {p : Page σ ρ} (cause : StructureError) :
    (p.showLine v word body c).1 ≠ .error (.structural cause) := by
  rw [showLine]
  rcases p.showSegments v word body with ⟨e | value, q⟩
  · intro h
    exact e.fault_ne_structural cause (Except.error.inj h)
  · dsimp only
    rcases (settle v.calculate value c).1 with e | _
    · intro h
      cases h
    · intro h
      cases h

/-- A line ends the pass, leaves the groups as they are, or settles the condition that
waits; if it leaves a condition waiting, then it is not live. -/
theorem content_conditions (v : Visit) (stopped : Bool) (word : Option BranchWord)
    (body : List Char) (c : Conditions) (p : Page σ ρ) :
    (∃ fault, (p.content v stopped word body c).1 = .error fault ∧ fault.isFatal = true) ∨
      (p.content v stopped word body c).2.1 = c ∧
        (c.pending = true → v.calculate = true ∧ (c.isTaken && !stopped) = false) ∨
      c.pending = true ∧ (v.calculate = true → (c.isTaken && !stopped) = true) ∧
        c.Settled (p.content v stopped word body c).2.1 := by
  by_cases hdead : v.calculate = true ∧ (c.isTaken && !stopped) = false
  · rw [content_of_dead word body p hdead.1 hdead.2]
    exact .inr (.inl ⟨rfl, fun _ => hdead⟩)
  have hlive : v.calculate = true → (c.isTaken && !stopped) = true := by
    intro hv
    rcases h : c.isTaken && !stopped with _ | _
    · exact absurd ⟨hv, h⟩ hdead
    · rfl
  have hskip : ¬(v.calculate && !(c.isTaken && !stopped)) = true := by
    intro h
    rw [Bool.and_eq_true, Bool.not_eq_true'] at h
    exact hdead h
  -- a line that is shown settles its condition, whichever branch word it begins with
  have hshow : ∀ word, (∃ fault, (p.showLine v word body c).1 = .error fault ∧
        fault.isFatal = true) ∨
      (p.showLine v word body c).2.1 = c ∧
        (c.pending = true → v.calculate = true ∧ (c.isTaken && !stopped) = false) ∨
      c.pending = true ∧ (v.calculate = true → (c.isTaken && !stopped) = true) ∧
        c.Settled (p.showLine v word body c).2.1 := by
    intro word
    rcases p.showLine_conditions v word body c with h | ⟨hp, h⟩ | ⟨hp, h⟩
    · exact .inl h
    · exact .inr (.inl ⟨h, by simp [hp]⟩)
    · exact .inr (.inr ⟨hp, hlive, h⟩)
  unfold content
  rw [if_neg hskip]
  rcases word with _ | word
  · exact hshow none
  · dsimp only
    split
    -- a bare word, a further test of a group that has matched, and a line that is shown
    · rw [bareWord]
      split
      · next hp => exact .inr (.inr ⟨hp, hlive, .inr ⟨false, rfl⟩⟩)
      · next hp => exact .inr (.inl ⟨rfl, fun h => absurd h hp⟩)
    split
    · next hmatched =>
      simp only [Bool.and_eq_true] at hmatched
      exact .inr (.inr ⟨hmatched.2, hlive, .inr ⟨false, rfl⟩⟩)
    · exact hshow (some word)

/-- The only fault of structure in a line that was entered is a condition without an
expression, behind a branch word that waits for one. -/
theorem content_structural {v : Visit} {stopped : Bool} {word : Option BranchWord}
    {body : List Char} {c : Conditions} {p : Page σ ρ} {cause : StructureError}
    (h : (p.content v stopped word body c).1 = .error (.structural cause)) :
    cause = .emptyCondition ∧ (∃ w, word = some w) ∧ body = [] ∧ c.pending = true := by
  unfold content at h
  split at h
  · cases h
  rcases word with _ | word
  · exact absurd h (showLine_structural cause)
  · dsimp only at h
    split at h
    · next hbody =>
      rw [bareWord] at h
      split at h
      · next hpending =>
        cases h
        exact ⟨rfl, ⟨word, rfl⟩, List.isEmpty_iff.mp hbody, hpending⟩
      · cases h
    split at h
    · cases h
    · exact absurd h (showLine_structural cause)

/-! ### Faults of lines that only touch the page -/

theorem countOfValue_structural (value : Float) (cause : StructureError) :
    (countOfValue value).mapError Fault.calculation ≠ .error (.structural cause) := by
  rcases countOfValue value with e | n
  · intro h
    cases h
  · intro h
    cases h

theorem iterationCount_structural (argument : List Char) (p : Page σ ρ)
    (cause : StructureError) : (p.iterationCount argument).1 ≠ .error (.structural cause) := by
  rw [iterationCount]
  split
  · next e _ _ =>
    intro h
    exact e.fault_ne_structural cause (Except.error.inj h)
  · exact countOfValue_structural _ cause

theorem round_structural {calculate : Bool} {argument : List Char} {p : Page σ ρ}
    (cause : StructureError) :
    (p.round calculate argument).1 ≠ .error (.structural cause) := by
  rw [round]
  split
  · simp
  split
  · simp
  split
  · split
    · next e _ _ =>
      intro h
      exact e.fault_ne_structural cause (Except.error.inj h)
    · simp
  · simp

theorem previewRepeat_structural {v : Visit} {argument : List Char} {p : Page σ ρ}
    (cause : StructureError) :
    (p.previewRepeat v argument).1 ≠ .error (.structural cause) := by
  rw [previewRepeat]
  split
  · simp
  split
  · simp
  split
  · intro h
    exact Failure.fault_ne_structural _ cause (Except.error.inj h)
  · next outcome _ _ _ =>
    rcases outcome with e | _
    · intro h
      exact e.fault_ne_structural cause (Except.error.inj h)
    · intro h
      cases h

variable [Plotter ρ σ]

theorem plot_structural {v : Visit} {shown : Bool} {kind : PlotKind} {p : Page σ ρ}
    (cause : StructureError) : (p.plot v shown kind).1 ≠ .error (.structural cause) := by
  rw [plot]
  split
  · simp
  split
  · simp
  split
  · next e _ _ =>
    intro h
    exact e.fault_ne_structural cause (Except.error.inj h)
  · simp

end Page

end Worksheet
