/-
Two passes in step.

Two passes over sheets of the same length can be run side by side, perhaps with different
engines.  A relation between their pages is a coupling for a visit if each thing that the
visit can do to a page keeps the relation and has the same outcome on both pages.  Then the
whole visit keeps it as well and leads both passes to the same line, so the passes stay in step
until they end.

What a relation says about the engines is its own matter.  If the visit calculates, related
pages have to give the same values and show them in the same way; if it does not, they have to
agree on an expression only once it has been read.

* `Piece.FitsLine` — the pieces that a visit to a line can write;
* `Coupling` — a relation that is kept by what a visit does to a page;
* `Coupling.step` — a visit to any line;
* `Pass.coupled_after`, `Pass.coupled_run` — any number of steps, and whole passes.
-/
import Worksheet.Proofs.Alike

namespace Worksheet

variable {σ τ ρ : Type}

/-! ### The pieces of a visit -/

/-- A visit to a line can write a piece: it reports no error of another line. -/
def Piece.FitsLine (number : Nat) : Piece → Prop
  | .lineError _ line _ => line = number
  | _ => True

theorem Piece.fitsLine_of_isError {number : Nat} {piece : Piece} (h : piece.isError = false) :
    piece.FitsLine number := by
  cases piece with
  | lineError => cases h
  | _ => trivial

theorem Piece.fitsLine_of_errors {number : Nat} {pieces : List Piece}
    (h : pieces.filter Piece.isError = []) : ∀ piece ∈ pieces, piece.FitsLine number := by
  intro piece hmem
  have hnot := List.filter_eq_nil_iff.mp h piece hmem
  exact Piece.fitsLine_of_isError (by simpa using hnot)

/-- An expression is shown by a piece that reports no error. -/
theorem Page.isError_expressionPiece [MathEngine σ] {calculate : Bool} {p : Page σ ρ}
    {piece : Piece} (h : p.expressionPiece calculate = .ok piece) : piece.isError = false := by
  rw [expressionPiece] at h
  split at h
  · rcases hr : MathEngine.resultText p.settings.decimals p.engine with payload | text
    · rw [hr] at h
      cases h
    · rw [hr] at h
      cases h
      rfl
  · cases h
    rfl

/-- A relation between pages that is kept by what a visit does to a page: each operation has
the same outcome on related pages. -/
structure Coupling [MathEngine σ] [MathEngine τ] (v : Visit)
    (Rel : Page σ ρ → Page τ ρ → Prop) : Prop where
  visible : ∀ {p q}, Rel p q → p.visible = q.visible
  mode : ∀ {p q}, Rel p q → p.mode = q.mode
  write : ∀ {p q} {pieces : List Piece}, Rel p q →
    (∀ piece ∈ pieces, piece.FitsLine v.number) → Rel (p.write pieces) (q.write pieces)
  skipInputs : ∀ {p q} (count : Nat), Rel p q → Rel (p.skipInputs count) (q.skipInputs count)
  applyToggle : ∀ {p q} (t : Toggle), Rel p q →
    Rel (p.applyToggle v.calculate t) (q.applyToggle v.calculate t)
  setDecimals : ∀ {p q} (decimals : Nat), Rel p q →
    Rel (p.setDecimals decimals) (q.setDecimals decimals)
  parse : ∀ {p q} (text : String), Rel p q → SameOutcome Rel (p.parse text) (q.parse text)
  /-- An expression that was read is shown in the same way. -/
  parsed : ∀ {p q} (text : String), Rel p q → (p.parse text).1 = .ok () →
    (p.parse text).2.expressionPiece v.calculate =
        (q.parse text).2.expressionPiece v.calculate ∧
      MathEngine.html (p.parse text).2.engine = MathEngine.html (q.parse text).2.engine
  calculate : ∀ {p q}, v.calculate = true → Rel p q → SameOutcome Rel p.calculate q.calculate
  /-- A value is shown in the same way. -/
  calculated : ∀ {p q}, v.calculate = true → Rel p q →
    p.expressionPiece true = q.expressionPiece true ∧
      MathEngine.result p.engine = MathEngine.result q.engine

namespace Coupling

variable [MathEngine σ] [MathEngine τ] {v : Visit} {Rel : Page σ ρ → Page τ ρ → Prop}
  {p : Page σ ρ} {q : Page τ ρ}

/-! ### Expressions -/

theorem writeIf (h : Coupling v Rel) (hpq : Rel p q) (condition : Bool) {pieces : List Piece}
    (hpieces : pieces.filter Piece.isError = []) :
    Rel (p.writeIf condition pieces) (q.writeIf condition pieces) := by
  rw [Page.writeIf, Page.writeIf]
  split
  · exact h.write hpq (Piece.fitsLine_of_errors hpieces)
  · exact hpq

theorem evaluate (h : Coupling v Rel) (hv : v.calculate = true) (hpq : Rel p q)
    (text : String) : SameOutcome Rel (p.evaluate text) (q.evaluate text) := by
  obtain ⟨read, p₁, q₁, hp₁, hq₁, hread⟩ := (h.parse text hpq).exists_eq
  rw [Page.evaluate, Page.evaluate, hp₁, hq₁]
  rcases read with e | _
  · exact ⟨rfl, hread⟩
  · obtain ⟨outcome, p₂, q₂, hp₂, hq₂, hcalculated⟩ := (h.calculate hv hread).exists_eq
    dsimp only
    rw [hp₂, hq₂]
    rcases outcome with e | _
    · exact ⟨rfl, hcalculated⟩
    · exact ⟨congrArg Except.ok (h.calculated hv hcalculated).2, hcalculated⟩

/-- An expression is shown by the same piece. -/
theorem showExpression (h : Coupling v Rel) (hpq : Rel p q)
    (hpiece : p.expressionPiece v.calculate = q.expressionPiece v.calculate) (shows : Bool) :
    SameOutcome Rel (p.showExpression shows v.calculate)
      (q.showExpression shows v.calculate) := by
  rw [Page.showExpression, Page.showExpression, ← hpiece]
  split
  · rcases hp : p.expressionPiece v.calculate with e | piece
    · exact ⟨rfl, hpq⟩
    · refine ⟨rfl, h.write hpq ?_⟩
      intro piece' hmem
      obtain rfl := List.mem_singleton.mp hmem
      exact Piece.fitsLine_of_isError (Page.isError_expressionPiece hp)
  · exact ⟨rfl, hpq⟩

theorem expression (h : Coupling v Rel) (hpq : Rel p q) (shows isCondition : Bool)
    (text : String) :
    SameOutcome Rel (p.expression v shows isCondition text)
      (q.expression v shows isCondition text) := by
  have hparsed := h.parsed text hpq
  obtain ⟨read, p₁, q₁, hp₁, hq₁, hread⟩ := (h.parse text hpq).exists_eq
  rw [hp₁, hq₁] at hparsed
  rw [Page.expression, Page.expression, hp₁, hq₁]
  rcases read with e | _
  · exact ⟨rfl, hread⟩
  dsimp only at hparsed ⊢
  rw [h.mode hread]
  split
  · next hasked =>
    have hv : v.calculate = true := (Bool.and_eq_true_iff.mp hasked).1
    obtain ⟨outcome, p₂, q₂, hp₂, hq₂, hcalculated⟩ := (h.calculate hv hread).exists_eq
    rw [hp₂, hq₂]
    rcases outcome with e | _
    · exact ⟨rfl, hcalculated⟩
    · have hpiece : p₂.expressionPiece v.calculate = q₂.expressionPiece v.calculate := by
        rw [hv]
        exact (h.calculated hv hcalculated).1
      obtain ⟨houtcome, hpage⟩ := h.showExpression hcalculated hpiece shows
      refine ⟨?_, hpage⟩
      dsimp only
      rw [houtcome, (h.calculated hv hpage).2]
  · obtain ⟨houtcome, hpage⟩ := h.showExpression hread (hparsed rfl).1 shows
    exact ⟨congrArg (Except.map fun _ => none) houtcome, hpage⟩

/-! ### Content lines -/

theorem walk (h : Coupling v Rel) (hpq : Rel p q) (shows isCondition : Bool)
    (rest : List Segment) (value : Option Complex) :
    SameOutcome Rel (p.walk v shows isCondition rest value)
      (q.walk v shows isCondition rest value) := by
  induction rest generalizing value p q with
  | nil => exact ⟨rfl, hpq⟩
  | cons s rest ih =>
    rw [Page.walk, Page.walk]
    split
    · obtain ⟨outcome, p₁, q₁, hp₁, hq₁, hexpression⟩ :=
        (h.expression hpq shows isCondition s.text).exists_eq
      rw [hp₁, hq₁]
      rcases outcome with (message | payload) | result
      · refine ih (h.write hexpression ?_) none
        simp [Piece.FitsLine]
      · exact ⟨rfl, hexpression⟩
      · exact ih hexpression _
    · exact ih (h.writeIf hpq shows rfl) value

theorem showSegments (h : Coupling v Rel) (hpq : Rel p q) (word : Option BranchWord)
    (body : List Char) :
    SameOutcome Rel (p.showSegments v word body) (q.showSegments v word body) := by
  rw [Page.showSegments, Page.showSegments]
  dsimp only
  rw [h.visible hpq, h.mode hpq]
  generalize segments (q.mode == .valueOnly) body = all
  generalize (q.visible && (!v.calculate || word.isNone)) = shows
  have hhead := h.writeIf hpq shows (Page.headPieces_errors v word all)
  obtain ⟨outcome, p₁, q₁, hp₁, hq₁, hwalk⟩ :=
    (h.walk hhead shows word.isSome (Page.leadingMarkup v all).2 none).exists_eq
  rw [hp₁, hq₁]
  rcases outcome with e | value
  · exact ⟨rfl, hwalk⟩
  · exact ⟨rfl, h.writeIf hwalk shows (Page.tailPieces_errors word all)⟩

/-- A line has the same outcome on related pages, and settles the condition in the same way. -/
theorem content (h : Coupling v Rel) (hpq : Rel p q) (stopped : Bool) (word : Option BranchWord)
    (body : List Char) (c : Conditions) :
    (p.content v stopped word body c).1 = (q.content v stopped word body c).1 ∧
      (p.content v stopped word body c).2.1 = (q.content v stopped word body c).2.1 ∧
      Rel (p.content v stopped word body c).2.2 (q.content v stopped word body c).2.2 := by
  have hline : ∀ word, (p.showLine v word body c).1 = (q.showLine v word body c).1 ∧
      (p.showLine v word body c).2.1 = (q.showLine v word body c).2.1 ∧
      Rel (p.showLine v word body c).2.2 (q.showLine v word body c).2.2 := by
    intro word
    obtain ⟨outcome, p₁, q₁, hp₁, hq₁, hsegments⟩ := (h.showSegments hpq word body).exists_eq
    rw [Page.showLine, Page.showLine, hp₁, hq₁]
    rcases outcome with e | value
    · exact ⟨rfl, rfl, hsegments⟩
    · exact ⟨rfl, rfl, hsegments⟩
  rw [Page.content.eq_def, Page.content.eq_def]
  split
  · exact ⟨rfl, rfl, h.skipInputs _ hpq⟩
  rcases word with _ | word
  · exact hline none
  · dsimp only
    split
    · rw [Page.bareWord, Page.bareWord, ← h.visible hpq]
      split
      · exact ⟨rfl, rfl, hpq⟩
      · refine ⟨rfl, rfl, h.writeIf hpq _ ?_⟩
        split <;> rfl
    split
    · exact ⟨rfl, rfl, hpq⟩
    · exact hline (some word)

/-! ### The other lines -/

theorem round (h : Coupling v Rel) (hpq : Rel p q) (argument : List Char) :
    SameOutcome Rel (p.round v.calculate argument) (q.round v.calculate argument) := by
  rw [Page.round, Page.round]
  split
  · exact ⟨rfl, hpq⟩
  split
  · exact ⟨rfl, h.setDecimals _ hpq⟩
  split
  · next hv =>
    obtain ⟨outcome, p₁, q₁, hp₁, hq₁, hevaluate⟩ :=
      (h.evaluate hv hpq (String.ofList argument)).exists_eq
    rw [hp₁, hq₁]
    rcases outcome with e | value
    · exact ⟨rfl, hevaluate⟩
    · exact ⟨rfl, h.setDecimals _ hevaluate⟩
  · exact ⟨rfl, hpq⟩

theorem iterationCount (h : Coupling v Rel) (hv : v.calculate = true) (hpq : Rel p q)
    (argument : List Char) :
    SameOutcome Rel (p.iterationCount argument) (q.iterationCount argument) := by
  obtain ⟨outcome, p₁, q₁, hp₁, hq₁, hevaluate⟩ :=
    (h.evaluate hv hpq (String.ofList argument)).exists_eq
  rw [Page.iterationCount, Page.iterationCount, hp₁, hq₁]
  rcases outcome with e | value
  · exact ⟨rfl, hevaluate⟩
  · exact ⟨rfl, hevaluate⟩

theorem previewRepeat (h : Coupling v Rel) (hpq : Rel p q) (argument : List Char) :
    SameOutcome Rel (p.previewRepeat v argument) (q.previewRepeat v argument) := by
  rw [Page.previewRepeat, Page.previewRepeat, h.visible hpq]
  split
  · exact ⟨rfl, hpq⟩
  split
  · exact ⟨rfl, h.write hpq (Piece.fitsLine_of_errors rfl)⟩
  have hparsed := h.parsed (String.ofList argument) hpq
  obtain ⟨read, p₁, q₁, hp₁, hq₁, hread⟩ := (h.parse (String.ofList argument) hpq).exists_eq
  rw [hp₁, hq₁] at hparsed
  rw [hp₁, hq₁]
  rcases read with (message | payload) | _
  · exact ⟨rfl, h.write hread (Piece.fitsLine_of_errors rfl)⟩
  · exact ⟨rfl, hread⟩
  · dsimp only at hparsed ⊢
    rw [(hparsed rfl).2]
    exact ⟨rfl, h.write hread (Piece.fitsLine_of_errors rfl)⟩

theorem previewLoopWord (h : Coupling v Rel) (hpq : Rel p q) (word : LoopWord) :
    Rel (p.previewLoopWord v word) (q.previewLoopWord v word) := by
  rw [Page.previewLoopWord, Page.previewLoopWord, h.visible hpq]
  refine h.writeIf hpq _ ?_
  split <;> rfl

end Coupling

/-! ### Passes -/

namespace Pass

/-- Two passes have the same open groups and blocks, and their pages are related. -/
structure Coupled (Rel : Page σ ρ → Page τ ρ → Prop) (s : Pass σ ρ) (t : Pass τ ρ) : Prop where
  conditions : s.conditions = t.conditions
  loops : s.loops = t.loops
  page : Rel s.page t.page

variable {Rel : Page σ ρ → Page τ ρ → Prop} {s : Pass σ ρ} {t : Pass τ ρ}

theorem Coupled.visit (h : Coupled Rel s t) (calculate : Bool) (line : Line) (index : Nat) :
    s.visit calculate line index = t.visit calculate line index := by
  rw [Pass.visit, Pass.visit, h.loops]

theorem Coupled.isLive (h : Coupled Rel s t) : s.isLive = t.isLive := by
  rw [Pass.isLive, Pass.isLive, h.conditions, h.loops]

end Pass

namespace Coupling

variable [MathEngine σ] [MathEngine τ] {v : Visit} {Rel : Page σ ρ → Page τ ρ → Prop}
  {s : Pass σ ρ} {t : Pass τ ρ}

theorem closeLoop (h : Coupling v Rel) (hst : Pass.Coupled Rel s t) :
    SameOutcome (Pass.Coupled Rel) (s.closeLoop v) (t.closeLoop v) := by
  rw [Pass.closeLoop, Pass.closeLoop, hst.conditions, hst.loops]
  split
  · exact ⟨rfl, rfl, rfl, h.previewLoopWord hst.page .closing⟩
  split
  · exact ⟨rfl, rfl, rfl, hst.page⟩
  · exact ⟨rfl, hst⟩

theorem leaveLoop (h : Coupling v Rel) (hst : Pass.Coupled Rel s t) :
    SameOutcome (Pass.Coupled Rel) (s.leaveLoop v) (t.leaveLoop v) := by
  rw [Pass.leaveLoop, Pass.leaveLoop, hst.isLive, hst.loops]
  split
  · exact ⟨rfl, hst.conditions, rfl, h.previewLoopWord hst.page .leave⟩
  split
  · split
    · exact ⟨rfl, hst.conditions, rfl, hst.page⟩
    · exact ⟨rfl, hst⟩
  · exact ⟨rfl, hst⟩

theorem continueLoop (h : Coupling v Rel) (hst : Pass.Coupled Rel s t) :
    SameOutcome (Pass.Coupled Rel) (s.continueLoop v) (t.continueLoop v) := by
  rw [Pass.continueLoop, Pass.continueLoop, hst.isLive, hst.conditions, hst.loops]
  split
  · exact ⟨rfl, rfl, rfl, h.previewLoopWord hst.page .next⟩
  split
  · exact ⟨rfl, rfl, rfl, hst.page⟩
  · exact ⟨rfl, hst⟩

theorem enterLoop (h : Coupling v Rel) (hst : Pass.Coupled Rel s t) (index : Nat)
    (argument : List Char) :
    SameOutcome (Pass.Coupled Rel) (s.enterLoop v index argument)
      (t.enterLoop v index argument) := by
  have hopened : ∀ (count : Option Nat) {p : Page σ ρ} {q : Page τ ρ}, Rel p q →
      Pass.Coupled Rel
        { s with loops := s.loops.enter index count s.conditions.depth, page := p }
        { t with loops := t.loops.enter index count t.conditions.depth, page := q } := by
    intro count p q hpage
    exact ⟨hst.conditions, by rw [hst.loops, hst.conditions], hpage⟩
  rw [Pass.enterLoop, Pass.enterLoop]
  dsimp only
  rw [show t.conditions.isTaken = s.conditions.isTaken by rw [hst.conditions],
    show t.loops.isStopped = s.loops.isStopped by rw [hst.loops]]
  split
  · obtain ⟨houtcome, hpage⟩ := h.previewRepeat hst.page argument
    exact ⟨houtcome, hst.conditions, hst.loops, hpage⟩
  next hv =>
  obtain ⟨outcome, p, q, hp, hq, hcount⟩ :=
    (h.iterationCount (by simpa using hv) hst.page argument).exists_eq
  rw [hp, hq]
  split
  · exact ⟨rfl, hst⟩
  split
  · exact ⟨rfl, hopened _ hst.page⟩
  split
  · exact ⟨rfl, hopened _ hst.page⟩
  rcases outcome with fault | count
  · refine ⟨rfl, ?_⟩
    dsimp only
    split
    · exact ⟨hst.conditions, hst.loops, hcount⟩
    · exact hopened _ hcount
  · exact ⟨rfl, hopened _ hcount⟩

theorem visitContent (h : Coupling v Rel) (hst : Pass.Coupled Rel s t)
    (word : Option BranchWord) (body : List Char) :
    SameOutcome (Pass.Coupled Rel) (s.visitContent v word body)
      (t.visitContent v word body) := by
  rw [Pass.visitContent, Pass.visitContent, hst.conditions, hst.loops]
  split
  · exact ⟨rfl, hst⟩
  · next c _ =>
    obtain ⟨houtcome, hconditions, hpage⟩ :=
      h.content hst.page t.loops.isStopped word body c
    exact ⟨houtcome, hconditions, rfl, hpage⟩

variable [Plotter ρ σ] [Plotter ρ τ]

/-- A line that leads to the next one.  What a plot line does is not the coupling's matter. -/
theorem visitPlain (h : Coupling v Rel) (hst : Pass.Coupled Rel s t) (index : Nat)
    {form : LineForm}
    (hplot : ∀ kind, form = .plot kind →
      SameOutcome Rel (s.page.plot v s.isLive kind) (t.page.plot v t.isLive kind)) :
    SameOutcome (Pass.Coupled Rel) (s.visitPlain v index form) (t.visitPlain v index form) := by
  have honPage : ∀ {r : Except Fault Unit × Page σ ρ} {r' : Except Fault Unit × Page τ ρ},
      SameOutcome Rel r r' → SameOutcome (Pass.Coupled Rel) (s.onPage r) (t.onPage r') :=
    fun hr => ⟨hr.1, hst.conditions, hst.loops, hr.2⟩
  cases form with
  | blank =>
    apply honPage
    rw [h.visible hst.page, hst.isLive]
    exact ⟨rfl, h.writeIf hst.page _ rfl⟩
  | toggle toggle => exact honPage ⟨rfl, h.applyToggle toggle hst.page⟩
  | round argument => exact honPage (h.round hst.page argument)
  | plot kind => exact honPage (hplot kind rfl)
  | branch word rest => exact h.visitContent hst (some word) rest
  | content => exact h.visitContent hst none v.chars
  | loop word argument => exact h.enterLoop hst index argument

/-- A visit has the same outcome in passes that are coupled, and they stay so. -/
theorem step {calculate : Bool} {line : Line} {index : Nat}
    (h : Coupling (s.visit calculate line index) Rel) (hst : Pass.Coupled Rel s t)
    (hplot : ∀ kind, line.form = .plot kind →
      SameOutcome Rel (s.page.plot (s.visit calculate line index) s.isLive kind)
        (t.page.plot (s.visit calculate line index) t.isLive kind)) :
    SameOutcome (Pass.Coupled Rel) (s.step calculate line index)
      (t.step calculate line index) := by
  have hplain := h.visitPlain hst index hplot
  rw [Pass.step, Pass.step, ← hst.visit]
  dsimp only
  split
  · exact h.closeLoop hst
  · exact h.leaveLoop hst
  · exact h.continueLoop hst
  · exact ⟨congrArg (Except.map fun _ => Flow.next) hplain.1, hplain.2⟩

end Coupling

/-! ### Steps and whole passes -/

namespace Pass

variable {Rel : Page σ ρ → Page τ ρ → Prop} {s : Pass σ ρ} {t : Pass τ ρ}

/-- What follows for two passes is the same: they end alike, or go on alike at one line. -/
inductive Progress.Coupled (Rel : Page σ ρ → Page τ ρ → Prop) :
    Progress σ ρ → Progress τ ρ → Prop
  | done {s : Pass σ ρ} {t : Pass τ ρ} (ending : Ending) (h : Pass.Coupled Rel s t) :
    Coupled Rel (.done ending s) (.done ending t)
  | go {s : Pass σ ρ} {t : Pass τ ρ} (cursor : Nat) (h : Pass.Coupled Rel s t) :
    Coupled Rel (.go cursor s) (.go cursor t)

/-- Reports on related pages keep them related, so coupled passes go on in the same way. -/
theorem coupled_follow {line : Line} {cursor : Nat} {r : Except Fault Flow × Pass σ ρ}
    {r' : Except Fault Flow × Pass τ ρ}
    (hwrite : ∀ {p q} {pieces : List Piece}, Rel p q →
      (∀ piece ∈ pieces, piece.FitsLine (cursor + 1)) → Rel (p.write pieces) (q.write pieces))
    (h : SameOutcome (Coupled Rel) r r') :
    (follow line cursor r).Coupled Rel (follow line cursor r') := by
  obtain ⟨outcome, s⟩ := r
  obtain ⟨outcome', t⟩ := r'
  obtain ⟨rfl, h⟩ := h
  have hreport : ∀ {piece : Piece}, piece.FitsLine (cursor + 1) →
      Coupled Rel (s.write [piece]) (t.write [piece]) := by
    intro piece hpiece
    refine ⟨h.conditions, h.loops, hwrite h.page ?_⟩
    intro piece' hmem
    rwa [List.mem_singleton.mp hmem]
  rcases outcome with fault | (_ | next | _)
  · rw [follow, follow]
    split
    · exact .done .aborted (hreport trivial)
    · exact .go (cursor + 1) (hreport rfl)
  · exact .go (cursor + 1) h
  · exact .go next h
  · exact .done .stopped h

variable [MathEngine σ] [MathEngine τ] [Plotter ρ σ] [Plotter ρ τ] {calculate : Bool}
  {lines lines' : Array Line}

/-- Passes that are coupled at every place of the first stay so for any number of steps. -/
theorem coupled_after
    (htick : ∀ {j u u'}, Reaches calculate lines 0 s j u → Coupled Rel u u' →
      (u.tick calculate lines j).Coupled Rel (u'.tick calculate lines' j))
    (h : Coupled Rel s t) (n : Nat) :
    (after calculate lines n 0 s).Coupled Rel (after calculate lines' n 0 t) := by
  have honward : ∀ n {i u u'}, Reaches calculate lines 0 s i u → Coupled Rel u u' →
      (after calculate lines n i u).Coupled Rel (after calculate lines' n i u') := by
    intro n
    induction n with
    | zero => exact fun _ hu => .go _ hu
    | succ n ih =>
      intro i u u' hreaches hu
      have hnext := htick hreaches hu
      rw [after, after]
      rcases hx : u.tick calculate lines i with ⟨ending, v⟩ | ⟨j, v⟩
      · rw [hx] at hnext
        generalize u'.tick calculate lines' i = y at hnext ⊢
        cases hnext with
        | done _ hv => exact .done ending hv
      · rw [hx] at hnext
        generalize u'.tick calculate lines' i = y at hnext ⊢
        cases hnext with
        | go _ hv => exact ih (hreaches.onward hx) hv
  exact honward n .here h

/-- Passes that are coupled after any number of steps end alike. -/
theorem coupled_run
    (h : ∀ n, (after calculate lines n 0 s).Coupled Rel (after calculate lines' n 0 t)) :
    SameOutcome (Coupled Rel) (s.run calculate lines 0) (t.run calculate lines' 0) := by
  obtain ⟨n, -, ending, u, hafter, hrun⟩ : ∃ n ≤ s.potential lines.size 0, ∃ ending u,
      after calculate lines n 0 s = .done ending u ∧ s.run calculate lines 0 = (ending, u) :=
    exists_after_eq_done 0 s
  have hn := h n
  rw [hafter] at hn
  generalize hafter' : after calculate lines' n 0 t = y at hn
  cases hn with
  | done _ hend =>
    rw [hrun, run_of_after hafter']
    exact ⟨rfl, hend⟩

end Pass

end Worksheet
