/-
Pages that differ in presentation only.

What is visible, how expressions are shown and whether their structured form goes with them
concerns the markup only.  Two pages that differ in nothing else are alike: they have the same
engine, input values and precision, and the same errors were reported on them.  Every line of
a calculated sheet leaves alike pages alike, whatever it shows on either, with the same
outcome.  The one thing that could tell the pages apart is an engine that crashes on showing a
value alone, so this is said of engines that can show values with as many decimals as the
precision asks for (`ShowsValues`).

* `SameOutcome` — two calls with the same outcome, and what they leave behind;
* `Page.Alike` — what two pages have in common;
* `Page.Alike.walk` — the expressions of a line, however they are shown;
* `Page.Alike.content`, `Page.Alike.round` — whole lines.
-/
import Worksheet.Proofs.Logged
import Worksheet.Proofs.Recorder

namespace Worksheet

/-- Two outcomes are the same, and what they leave behind is related. -/
def SameOutcome {α β γ : Type} (Rel : β → γ → Prop) (r : α × β) (r' : α × γ) : Prop :=
  r.1 = r'.1 ∧ Rel r.2 r'.2

theorem SameOutcome.exists_eq {α β γ : Type} {Rel : β → γ → Prop} {r : α × β} {r' : α × γ}
    (h : SameOutcome Rel r r') :
    ∃ outcome b c, r = (outcome, b) ∧ r' = (outcome, c) ∧ Rel b c :=
  ⟨r.1, r.2, r'.2, rfl, Prod.ext h.1.symm rfl, h.2⟩

/-- An engine can show any value with a number of decimals up to a limit. -/
def ShowsValues (σ : Type) [MathEngine σ] (limit : Nat) : Prop :=
  ∀ decimals ≤ limit, ∀ e : σ, ∃ text, MathEngine.resultText decimals e = .ok text

theorem Arithmetic.Engine.showsValues : ShowsValues Engine maxShownDecimals := by
  intro decimals hle e
  refine ⟨Number.fixedText decimals e.value, ?_⟩
  show resultText decimals e = _
  rw [resultText, if_neg (by omega)]

theorem Logged.showsValues {σ : Type} [MathEngine σ] {limit : Nat} (h : ShowsValues σ limit) :
    ShowsValues (Logged σ) limit :=
  fun decimals hle e => h decimals hle e.inner

/-! ### Pages -/

namespace Page

variable {σ ρ α : Type}

/-- The errors that are reported on a page. -/
def errors (p : Page σ ρ) : List Piece :=
  p.output.toList.filter Piece.isError

/-- Two pages differ in presentation at most: in what is visible and how, and in the pieces of
their output that report no error. -/
structure Alike (limit : Nat) (p q : Page σ ρ) : Prop where
  engine : p.engine = q.engine
  cancel : p.cancel = q.cancel
  inputs : p.inputs = q.inputs
  decimals : p.settings.decimals = q.settings.decimals
  bounded : p.settings.decimals ≤ limit
  uncalculated : p.mode = .uncalculated ↔ q.mode = .uncalculated
  errors : p.errors = q.errors

/-- Two outcomes are the same, and the pages that they leave behind differ in presentation at
most. -/
def Agree (limit : Nat) (r r' : α × Page σ ρ) : Prop :=
  r.1 = r'.1 ∧ r.2.Alike limit r'.2

variable {limit : Nat} {p q r : Page σ ρ}

theorem Alike.refl (h : p.settings.decimals ≤ limit) : p.Alike limit p :=
  ⟨rfl, rfl, rfl, rfl, h, Iff.rfl, rfl⟩

theorem Alike.symm (h : p.Alike limit q) : q.Alike limit p where
  engine := h.engine.symm
  cancel := h.cancel.symm
  inputs := h.inputs.symm
  decimals := h.decimals.symm
  bounded := h.decimals ▸ h.bounded
  uncalculated := h.uncalculated.symm
  errors := h.errors.symm

theorem Alike.trans (h : p.Alike limit q) (h' : q.Alike limit r) : p.Alike limit r where
  engine := h.engine.trans h'.engine
  cancel := h.cancel.trans h'.cancel
  inputs := h.inputs.trans h'.inputs
  decimals := h.decimals.trans h'.decimals
  bounded := h.bounded
  uncalculated := h.uncalculated.trans h'.uncalculated
  errors := h.errors.trans h'.errors

theorem Agree.symm {x y : α × Page σ ρ} (h : Agree limit x y) : Agree limit y x :=
  ⟨h.1.symm, h.2.symm⟩

theorem Agree.trans {x y z : α × Page σ ρ} (h : Agree limit x y) (h' : Agree limit y z) :
    Agree limit x z :=
  ⟨h.1.trans h'.1, h.2.trans h'.2⟩

theorem Agree.exists_eq {x y : α × Page σ ρ} (h : Agree limit x y) :
    ∃ outcome p q, x = (outcome, p) ∧ y = (outcome, q) ∧ p.Alike limit q := by
  have hsame : SameOutcome (Alike limit) x y := h
  exact hsame.exists_eq

theorem errors_write (pieces : List Piece) (p : Page σ ρ) :
    (p.write pieces).errors = p.errors ++ pieces.filter Piece.isError := by
  rw [errors, output_write, List.filter_append]
  rfl

/-- What is written may differ, but not in the errors that are reported. -/
theorem Alike.write (h : p.Alike limit q) {pieces pieces' : List Piece}
    (hpieces : pieces.filter Piece.isError = pieces'.filter Piece.isError) :
    (p.write pieces).Alike limit (q.write pieces') where
  engine := h.engine
  cancel := h.cancel
  inputs := h.inputs
  decimals := h.decimals
  bounded := h.bounded
  uncalculated := h.uncalculated
  errors := by rw [errors_write, errors_write, h.errors, hpieces]

/-- Pieces that report no error may be written on either page. -/
theorem Alike.writeIf (h : p.Alike limit q) (condition condition' : Bool)
    {pieces pieces' : List Piece} (hpieces : pieces.filter Piece.isError = [])
    (hpieces' : pieces'.filter Piece.isError = []) :
    (p.writeIf condition pieces).Alike limit (q.writeIf condition' pieces') := by
  have hleft : (p.writeIf condition pieces).Alike limit q := by
    rw [Page.writeIf]
    split
    · refine ⟨h.engine, h.cancel, h.inputs, h.decimals, h.bounded, h.uncalculated, ?_⟩
      rw [errors_write, hpieces, List.append_nil, h.errors]
    · exact h
  rw [Page.writeIf.eq_def condition']
  split
  · refine ⟨hleft.engine, hleft.cancel, hleft.inputs, hleft.decimals, hleft.bounded,
      hleft.uncalculated, ?_⟩
    rw [errors_write, hpieces', List.append_nil, hleft.errors]
  · exact hleft

theorem Alike.skipInputs (h : p.Alike limit q) (count : Nat) :
    (p.skipInputs count).Alike limit (q.skipInputs count) where
  engine := h.engine
  cancel := h.cancel
  inputs := congrArg (InputQueue.skip count) h.inputs
  decimals := h.decimals
  bounded := h.bounded
  uncalculated := h.uncalculated
  errors := h.errors

variable [MathEngine σ]

/-! ### Calls of the engine -/

theorem Alike.parse (h : p.Alike limit q) (text : String) :
    Agree limit (p.parse text) (q.parse text) := by
  rw [Page.parse, Page.parse, h.engine, h.inputs]
  refine ⟨rfl, rfl, ?_, rfl, h.decimals, h.bounded, h.uncalculated, h.errors⟩
  dsimp only
  rw [h.cancel]

theorem Alike.calculate (h : p.Alike limit q) : Agree limit p.calculate q.calculate := by
  rw [Page.calculate, Page.calculate, h.engine]
  refine ⟨rfl, rfl, ?_, h.inputs, h.decimals, h.bounded, h.uncalculated, h.errors⟩
  dsimp only
  rw [h.cancel]

theorem Alike.evaluate (h : p.Alike limit q) (text : String) :
    Agree limit (p.evaluate text) (q.evaluate text) := by
  obtain ⟨read, p₁, q₁, hp₁, hq₁, hread⟩ := (h.parse text).exists_eq
  rw [Page.evaluate, Page.evaluate, hp₁, hq₁]
  rcases read with e | _
  · exact ⟨rfl, hread⟩
  · obtain ⟨outcome, p₂, q₂, hp₂, hq₂, hcalculated⟩ := hread.calculate.exists_eq
    dsimp only
    rw [hp₂, hq₂]
    rcases outcome with e | _
    · exact ⟨rfl, hcalculated⟩
    · refine ⟨?_, hcalculated⟩
      dsimp only
      rw [hcalculated.engine]

/-! ### Expressions and lines -/

/-- Showing an expression succeeds, and reports no error. -/
theorem exists_showExpression (hshows : ShowsValues σ limit) (hp : p.settings.decimals ≤ limit)
    (shows calculate : Bool) :
    ∃ condition piece, p.showExpression shows calculate = (.ok (), p.writeIf condition [piece]) ∧
      piece.isError = false := by
  rw [showExpression]
  rcases shows with _ | _
  · exact ⟨false, .lineEnd, rfl, rfl⟩
  · rw [if_pos rfl, expressionPiece]
    split
    · next piece hpiece =>
      refine ⟨true, piece, rfl, ?_⟩
      split at hpiece
      · obtain ⟨text, htext⟩ := hshows _ hp p.engine
        rw [htext] at hpiece
        cases hpiece
        rfl
      · cases hpiece
        rfl
    · next e he =>
      split at he
      · obtain ⟨text, htext⟩ := hshows _ hp p.engine
        rw [htext] at he
        cases he
      · cases he

theorem Alike.showExpression (hshows : ShowsValues σ limit) (h : p.Alike limit q)
    (shows shows' calculate : Bool) :
    Agree limit (p.showExpression shows calculate) (q.showExpression shows' calculate) := by
  obtain ⟨condition, piece, hp, hpiece⟩ :=
    exists_showExpression hshows h.bounded shows calculate
  obtain ⟨condition', piece', hq, hpiece'⟩ :=
    exists_showExpression hshows h.symm.bounded shows' calculate
  rw [hp, hq]
  exact ⟨rfl, h.writeIf condition condition' (by simp [hpiece]) (by simp [hpiece'])⟩

theorem Alike.expression (hshows : ShowsValues σ limit) (h : p.Alike limit q) (v : Visit)
    (shows shows' isCondition : Bool) (text : String) :
    Agree limit (p.expression v shows isCondition text)
      (q.expression v shows' isCondition text) := by
  obtain ⟨read, p₁, q₁, hp₁, hq₁, hread⟩ := (h.parse text).exists_eq
  rw [Page.expression, Page.expression, hp₁, hq₁]
  rcases read with e | _
  · exact ⟨rfl, hread⟩
  have hmode : (p₁.mode != .uncalculated) = (q₁.mode != .uncalculated) := by
    rw [Bool.eq_iff_iff]
    simpa using not_congr hread.uncalculated
  dsimp only
  rw [hmode]
  split
  · obtain ⟨outcome, p₂, q₂, hp₂, hq₂, hcalculated⟩ := hread.calculate.exists_eq
    rw [hp₂, hq₂]
    rcases outcome with e | _
    · exact ⟨rfl, hcalculated⟩
    · obtain ⟨houtcome, hpage⟩ := hcalculated.showExpression hshows shows shows' v.calculate
      refine ⟨?_, hpage⟩
      dsimp only
      rw [houtcome, hpage.engine]
  · obtain ⟨houtcome, hpage⟩ := hread.showExpression hshows shows shows' v.calculate
    refine ⟨?_, hpage⟩
    dsimp only
    rw [houtcome]

/-- Only the expressions among the segments of a line matter. -/
theorem Alike.walk_expressions (hshows : ShowsValues σ limit) (v : Visit)
    (shows shows' isCondition : Bool) (rest : List Segment) (value : Option Complex)
    (h : p.Alike limit q) :
    Agree limit (p.walk v shows isCondition rest value)
      (q.walk v shows' isCondition ((expressionsAmong rest).map (Segment.mk .expression))
        value) := by
  induction rest generalizing value p q with
  | nil => exact ⟨rfl, h⟩
  | cons s rest ih =>
    rw [Page.walk, expressionsAmong]
    split
    · obtain ⟨outcome, p₁, q₁, hp₁, hq₁, hexpression⟩ :=
        (h.expression hshows v shows shows' isCondition s.text).exists_eq
      rw [List.map_cons, Page.walk, if_pos rfl]
      rw [show (Segment.mk .expression s.chars).text = s.text from rfl, hp₁, hq₁]
      rcases outcome with (message | payload) | result
      · exact ih _ (hexpression.write rfl)
      · exact ⟨rfl, hexpression⟩
      · exact ih _ hexpression
    · have hnothing : ([] : List Piece).filter Piece.isError = [] := rfl
      exact ih _ (h.writeIf shows false rfl hnothing)

/-- Two walks over segments with the same expressions agree. -/
theorem Alike.walk (hshows : ShowsValues σ limit) (v : Visit) (shows shows' isCondition : Bool)
    {rest rest' : List Segment} (hrest : expressionsAmong rest = expressionsAmong rest')
    (value : Option Complex) (h : p.Alike limit q) :
    Agree limit (p.walk v shows isCondition rest value)
      (q.walk v shows' isCondition rest' value) := by
  have hleft := h.walk_expressions hshows v shows shows' isCondition rest value
  have hright := (Alike.refl h.symm.bounded).walk_expressions hshows v shows' shows' isCondition
    rest' value
  rw [← hrest] at hright
  exact hleft.trans hright.symm

omit [MathEngine σ] in
theorem headPieces_errors (v : Visit) (word : Option BranchWord) (all : List Segment) :
    (headPieces v word all ++ (leadingMarkup v all).1).filter Piece.isError = [] := by
  have hopen : (openingPieces v all).filter Piece.isError = [] := by
    unfold openingPieces
    split <;> rfl
  have hmarkup : (leadingMarkup v all).1.filter Piece.isError = [] := by
    unfold leadingMarkup
    split <;> rfl
  have hlabel : (if v.calculate then [] else
      (word.map fun w => Piece.label w.label).toList).filter Piece.isError = [] := by
    rcases word with _ | word
    · simp
    · split <;> rfl
  have hdedent : (if endsBody word then [Piece.dedent] else []).filter Piece.isError = [] := by
    split <;> rfl
  rw [headPieces, List.filter_append, List.filter_append, List.filter_append, hopen, hmarkup,
    hlabel, hdedent]
  rfl

theorem tailPieces_errors (word : Option BranchWord) (all : List Segment) :
    (tailPieces word all).filter Piece.isError = [] := by
  have hclose : (closingPieces all).filter Piece.isError = [] := by
    unfold closingPieces
    split <;> rfl
  have hindent : (if beginsBody word then [Piece.indent] else []).filter Piece.isError = [] := by
    split <;> rfl
  rw [tailPieces, List.filter_append, List.filter_append, hclose, hindent]
  rfl

theorem Alike.showSegments (hshows : ShowsValues σ limit) (v : Visit) (word : Option BranchWord)
    (body : List Char) (h : p.Alike limit q) :
    Agree limit (p.showSegments v word body) (q.showSegments v word body) := by
  -- the modes may differ in the padding of quoted parts, but the expressions are the same
  have hexpressions : ∀ valueOnly,
      expressionsAmong (leadingMarkup v (segments valueOnly body)).2 = expressionsOf body := by
    intro valueOnly
    rw [expressionsAmong_leadingMarkup, expressionsAmong_segments]
  rw [Page.showSegments, Page.showSegments]
  dsimp only
  have hrest := (hexpressions (p.mode == .valueOnly)).trans
    (hexpressions (q.mode == .valueOnly)).symm
  generalize segments (p.mode == .valueOnly) body = all at hrest ⊢
  generalize segments (q.mode == .valueOnly) body = all' at hrest ⊢
  generalize (p.visible && (!v.calculate || word.isNone)) = shows
  generalize (q.visible && (!v.calculate || word.isNone)) = shows'
  have hhead := h.writeIf shows shows' (headPieces_errors v word all)
    (headPieces_errors v word all')
  obtain ⟨outcome, p₁, q₁, hp₁, hq₁, hwalk⟩ :=
    (hhead.walk hshows v shows shows' word.isSome hrest none).exists_eq
  rw [hp₁, hq₁]
  rcases outcome with e | value
  · exact ⟨rfl, hwalk⟩
  · have htail := hwalk.writeIf shows shows' (tailPieces_errors word all)
      (tailPieces_errors word all')
    exact ⟨rfl, htail⟩

/-- A line has the same outcome on alike pages, and settles the condition in the same way. -/
theorem Alike.content (hshows : ShowsValues σ limit) (v : Visit) (stopped : Bool)
    (word : Option BranchWord) (body : List Char) (c : Conditions) (h : p.Alike limit q) :
    (p.content v stopped word body c).1 = (q.content v stopped word body c).1 ∧
      (p.content v stopped word body c).2.1 = (q.content v stopped word body c).2.1 ∧
      (p.content v stopped word body c).2.2.Alike limit (q.content v stopped word body c).2.2 := by
  have hline : ∀ word, (p.showLine v word body c).1 = (q.showLine v word body c).1 ∧
      (p.showLine v word body c).2.1 = (q.showLine v word body c).2.1 ∧
      (p.showLine v word body c).2.2.Alike limit (q.showLine v word body c).2.2 := by
    intro word
    obtain ⟨outcome, p₁, q₁, hp₁, hq₁, hsegments⟩ :=
      (h.showSegments hshows v word body).exists_eq
    rw [showLine, showLine, hp₁, hq₁]
    rcases outcome with e | value
    · exact ⟨rfl, rfl, hsegments⟩
    · exact ⟨rfl, rfl, hsegments⟩
  rw [Page.content.eq_def, Page.content.eq_def]
  split
  · exact ⟨rfl, rfl, h.skipInputs _⟩
  rcases word with _ | word
  · exact hline none
  · dsimp only
    split
    · rw [bareWord, bareWord]
      split
      · exact ⟨rfl, rfl, h⟩
      · refine ⟨rfl, rfl, h.writeIf _ _ ?_ ?_⟩
        · split <;> rfl
        · split <;> rfl
    split
    · exact ⟨rfl, rfl, h⟩
    · exact hline (some word)

/-! ### The other lines -/

/-- What is visible may change on either page. -/
theorem Alike.visibility (h : p.Alike limit q) (calculate : Bool) (a b : Visibility) :
    (p.applyToggle calculate (.visibility a)).Alike limit
      (q.applyToggle calculate (.visibility b)) := by
  cases a <;> cases b <;>
    exact ⟨h.engine, h.cancel, h.inputs, h.decimals, h.bounded, h.uncalculated, h.errors⟩

/-- How calculated expressions are shown may change on either page. -/
theorem Alike.outputMode (h : p.Alike limit q) (calculate : Bool) {m m' : OutputMode}
    (hm : m ≠ .uncalculated) (hm' : m' ≠ .uncalculated) :
    (p.applyToggle calculate (.output m)).Alike limit
      (q.applyToggle calculate (.output m')) where
  engine := h.engine
  cancel := h.cancel
  inputs := h.inputs
  decimals := h.decimals
  bounded := h.bounded
  uncalculated := iff_of_false hm hm'
  errors := h.errors

/-- A toggle that is the same for both pages. -/
theorem Alike.applyToggle (h : p.Alike limit q) (calculate : Bool) (t : Toggle) :
    (p.applyToggle calculate t).Alike limit (q.applyToggle calculate t) := by
  cases t with
  | visibility visibility => exact h.visibility calculate visibility visibility
  | output mode =>
    exact ⟨h.engine, h.cancel, h.inputs, h.decimals, h.bounded, Iff.rfl, h.errors⟩
  | angle mode =>
    exact ⟨congrArg (MathEngine.setAngleMode mode) h.engine, h.cancel, h.inputs, h.decimals,
      h.bounded, h.uncalculated, h.errors⟩
  | scope scope => exact h

omit [MathEngine σ] in
/-- The precision that `#round` sets is one that the engine can show. -/
theorem Alike.setDecimals (hlimit : maxDecimals ≤ limit) (h : p.Alike limit q) (decimals : Nat) :
    (p.setDecimals decimals).Alike limit (q.setDecimals decimals) where
  engine := h.engine
  cancel := h.cancel
  inputs := h.inputs
  decimals := rfl
  bounded := Nat.le_trans (Nat.min_le_left _ _) hlimit
  uncalculated := h.uncalculated
  errors := h.errors

theorem Alike.round (hlimit : maxDecimals ≤ limit) (h : p.Alike limit q) (calculate : Bool)
    (argument : List Char) :
    Agree limit (p.round calculate argument) (q.round calculate argument) := by
  rw [Page.round, Page.round]
  split
  · exact ⟨rfl, h⟩
  split
  · exact ⟨rfl, h.setDecimals hlimit _⟩
  split
  · obtain ⟨outcome, p₁, q₁, hp₁, hq₁, hevaluate⟩ :=
      (h.evaluate (String.ofList argument)).exists_eq
    rw [hp₁, hq₁]
    rcases outcome with e | value
    · exact ⟨rfl, hevaluate⟩
    · exact ⟨rfl, hevaluate.setDecimals hlimit _⟩
  · exact ⟨rfl, h⟩

theorem Alike.iterationCount (h : p.Alike limit q) (argument : List Char) :
    Agree limit (p.iterationCount argument) (q.iterationCount argument) := by
  obtain ⟨outcome, p₁, q₁, hp₁, hq₁, hevaluate⟩ :=
    (h.evaluate (String.ofList argument)).exists_eq
  rw [Page.iterationCount, Page.iterationCount, hp₁, hq₁]
  rcases outcome with e | value
  · exact ⟨rfl, hevaluate⟩
  · exact ⟨rfl, hevaluate⟩

end Page

end Worksheet
