/-
A preview evaluates nothing.

A preview shows every branch and every loop body once, and hands expressions to the engine only
to have them set in type.  So a pass that is a preview goes through its lines from the first to
the last, and asks for no calculation.  It does not depend on what the engine holds either: an
expression that the engine reads is shown as it is read, whatever was read or calculated
before, and where reading it fails nothing of the engine is shown.

* `ReadAlike` — engines that read expressions alike, whatever they hold;
* `Page.PreviewAlike` — two pages of a preview, with `previewAlike_coupling`;
* `Pass.follow_preview`, `Pass.after_preview` — a preview goes on with the next line;
* `Workbench.visits_preview`, `Workbench.compile_preview` — the lines of a whole preview, and its
  markup;
* `Workbench.preview_evaluates_nothing` — previews with the engine for real arithmetic.
-/
import Worksheet.Proofs.Coupling
import Worksheet.Proofs.Steady

namespace Worksheet

variable {σ τ ρ : Type}

/-! ### Engines that read alike -/

/-- An engine never crashes on reading an expression. -/
def ReadsSafely (σ : Type) [MathEngine σ] : Prop :=
  ∀ text inputs (e : σ) payload,
    (MathEngine.parse text inputs e).1.outcome ≠ .error (.crashed payload)

/-- Two engines read expressions alike, whatever they hold: they read or refuse the same ones,
with the same input values, and show in the same way what they have read.  Neither crashes on
reading. -/
structure ReadAlike (σ τ : Type) [MathEngine σ] [MathEngine τ] : Prop where
  outcome : ∀ text inputs (e : σ) (e' : τ),
    (MathEngine.parse text inputs e).1.outcome = (MathEngine.parse text inputs e').1.outcome
  rest : ∀ text inputs (e : σ) (e' : τ),
    (MathEngine.parse text inputs e).2 = (MathEngine.parse text inputs e').2
  shown : ∀ text inputs (e : σ) (e' : τ), (MathEngine.parse text inputs e).1.outcome = .ok () →
    MathEngine.html (MathEngine.parse text inputs e).1.engine =
        MathEngine.html (MathEngine.parse text inputs e').1.engine ∧
      MathEngine.xml (MathEngine.parse text inputs e).1.engine =
        MathEngine.xml (MathEngine.parse text inputs e').1.engine
  safe : ReadsSafely σ

/-- The engine for real arithmetic reads an expression without regard to what it holds: it shows
the text of the expression once it was read, and no value. -/
theorem Arithmetic.Engine.readAlike : ReadAlike Engine Engine where
  outcome text inputs e e' := by
    show outcome (parse text inputs e).1 = outcome (parse text inputs e').1
    rw [parse, parse]
    rcases read text inputs with ⟨err | ⟨statement, display⟩, rest⟩
    · rfl
    · rfl
  rest text inputs e e' := by
    show (parse text inputs e).2.2 = (parse text inputs e').2.2
    rw [parse, parse]
    rcases read text inputs with ⟨err | ⟨statement, display⟩, rest⟩
    · rfl
    · rfl
  shown text inputs e e' := by
    show outcome (parse text inputs e).1 = .ok () →
      html (parse text inputs e).2.1 = html (parse text inputs e').2.1 ∧
        xml (parse text inputs e).2.1 = xml (parse text inputs e').2.1
    rw [parse, parse]
    rcases read text inputs with ⟨err | ⟨statement, display⟩, rest⟩
    · intro h
      cases h
    · exact fun _ => ⟨rfl, rfl⟩
  safe text inputs e payload := by
    show outcome (parse text inputs e).1 ≠ .error (.crashed payload)
    rcases (parse text inputs e).1 with err | _
    · intro h
      cases h
    · intro h
      cases h

/-- A logged engine reads as the engine inside it does. -/
theorem Logged.readAlike [MathEngine σ] [MathEngine τ] (h : ReadAlike σ τ) :
    ReadAlike (Logged σ) τ where
  outcome text inputs e e' := h.outcome text inputs e.inner e'
  rest text inputs e e' := h.rest text inputs e.inner e'
  shown text inputs e e' := h.shown text inputs e.inner e'
  safe text inputs e payload := h.safe text inputs e.inner payload

instance [MathEngine σ] [Steady σ] : Steady (Logged σ) where
  parse_cancels text inputs e := Steady.parse_cancels text inputs e.inner
  calculate_cancels e := Steady.calculate_cancels e.inner
  wantsStop e := Steady.wantsStop e.inner

/-- A relation between the states of two engines survives a preview: reading an expression and
setting the angle mode keep it. -/
structure SurvivesPreview [MathEngine σ] [MathEngine τ] (E : σ → τ → Prop) : Prop where
  parse : ∀ text inputs {e e'}, E e e' →
    E (MathEngine.parse text inputs e).1.engine (MathEngine.parse text inputs e').1.engine
  setAngleMode : ∀ mode {e e'}, E e e' →
    E (MathEngine.setAngleMode mode e) (MathEngine.setAngleMode mode e')

theorem survivesPreview_true [MathEngine σ] [MathEngine τ] :
    SurvivesPreview fun (_ : σ) (_ : τ) => True :=
  ⟨fun _ _ _ _ _ => trivial, fun _ _ _ _ => trivial⟩

/-- A logged engine and the engine inside it, with what a preview leaves alone as it was in
some state. -/
structure Arithmetic.Engine.Unspent (before : Engine) (e : Logged Engine) (e' : Engine) :
    Prop where
  inner : e.inner = e'
  evaluations : Evaluation.calculate ∉ e.evaluations
  store : e'.store = before.store
  value : e'.value = before.value
  calculations : e'.calculations = before.calculations

/-- Reading an expression calculates nothing. -/
theorem Arithmetic.Engine.unspent_survives (before : Engine) :
    SurvivesPreview (Unspent before) where
  parse text inputs e e' h := by
    obtain ⟨rfl, hevaluations, hstore, hvalue, hcalculations⟩ := h
    have hkeeps : (parse text inputs e.inner).2.1.store = e.inner.store ∧
        (parse text inputs e.inner).2.1.value = e.inner.value ∧
        (parse text inputs e.inner).2.1.calculations = e.inner.calculations := by
      rw [parse]
      rcases read text inputs with ⟨err | ⟨statement, display⟩, rest⟩
      · exact ⟨rfl, rfl, rfl⟩
      · exact ⟨rfl, rfl, rfl⟩
    refine ⟨rfl, ?_, hkeeps.1.trans hstore, hkeeps.2.1.trans hvalue,
      hkeeps.2.2.trans hcalculations⟩
    show Evaluation.calculate ∉ e.evaluations ++ [.parse text]
    simp [hevaluations]
  setAngleMode mode e e' h := by
    obtain ⟨rfl, hevaluations, hstore, hvalue, hcalculations⟩ := h
    exact ⟨rfl, hevaluations, hstore, hvalue, hcalculations⟩

/-! ### Two previews side by side -/

namespace Page

/-- Two pages of a preview without a plotter differ in their engines only, and these are
related. -/
structure PreviewAlike (E : σ → τ → Prop) (flag : CancelFlag) (p : Page σ ρ) (q : Page τ ρ) :
    Prop where
  others : p.map (fun _ => ()) = q.map (fun _ => ())
  plots : p.plots = none
  cancel : p.cancel = flag
  engines : E p.engine q.engine

variable {E : σ → τ → Prop} {flag : CancelFlag} {p : Page σ ρ} {q : Page τ ρ}

namespace PreviewAlike

theorem visible (h : PreviewAlike E flag p q) : p.visible = q.visible :=
  congrArg Page.visible h.others

theorem inputs (h : PreviewAlike E flag p q) : p.inputs = q.inputs :=
  congrArg Page.inputs h.others

theorem settings (h : PreviewAlike E flag p q) : p.settings = q.settings :=
  congrArg Page.settings h.others

theorem output (h : PreviewAlike E flag p q) : p.output = q.output :=
  congrArg Page.output h.others

theorem write (h : PreviewAlike E flag p q) (pieces : List Piece) :
    PreviewAlike E flag (p.write pieces) (q.write pieces) :=
  ⟨congrArg (Page.write pieces) h.others, h.plots, h.cancel, h.engines⟩

variable [MathEngine σ] [MathEngine τ]

theorem applyToggle (hE : SurvivesPreview E) (h : PreviewAlike E flag p q) (calculate : Bool)
    (t : Toggle) :
    PreviewAlike E flag (p.applyToggle calculate t) (q.applyToggle calculate t) := by
  have hset : ∀ visible, p.map (fun _ => ()) = q.map (fun _ => ()) →
      ({ p with visible } : Page σ ρ).map (fun _ => ()) =
        ({ q with visible } : Page τ ρ).map (fun _ => ()) := by
    intro visible hothers
    exact congrArg (fun p : Page Unit ρ => { p with visible }) hothers
  rcases t with (_ | _ | _ | _) | mode | mode | scope
  · exact ⟨hset _ h.others, h.plots, h.cancel, h.engines⟩
  · exact ⟨hset _ h.others, h.plots, h.cancel, h.engines⟩
  · exact ⟨hset _ h.others, h.plots, h.cancel, h.engines⟩
  · exact ⟨hset _ h.others, h.plots, h.cancel, h.engines⟩
  · exact ⟨congrArg (fun p : Page Unit ρ => { p with mode }) h.others, h.plots, h.cancel,
      h.engines⟩
  · exact ⟨h.others, h.plots, h.cancel, hE.setAngleMode mode h.engines⟩
  · exact h

theorem parse [Steady σ] [Steady τ] (hread : ReadAlike σ τ) (hE : SurvivesPreview E)
    (h : PreviewAlike E flag p q) (text : String) :
    SameOutcome (PreviewAlike E flag) (p.parse text) (q.parse text) := by
  have hinputs := h.inputs
  rw [Page.parse, Page.parse, hinputs]
  refine ⟨hread.outcome text q.inputs p.engine q.engine, ?_, h.plots, ?_,
    hE.parse text q.inputs h.engines⟩
  · have hrest := hread.rest text q.inputs p.engine q.engine
    dsimp only
    rw [Steady.parse_cancels, Steady.parse_cancels, CancelFlag.raiseIf_false,
      CancelFlag.raiseIf_false, hrest]
    exact congrArg (fun p : Page Unit ρ => { p with
      inputs := (MathEngine.parse text q.inputs q.engine).2 }) h.others
  · dsimp only
    rw [Steady.parse_cancels, CancelFlag.raiseIf_false]
    exact h.cancel

end PreviewAlike

/-- A preview shows an expression as it was read. -/
theorem expressionPiece_preview [MathEngine σ] (p : Page σ ρ) :
    p.expressionPiece false = .ok (.equation (MathEngine.html p.engine)
      (if p.settings.formatEquations then some (MathEngine.xml p.engine) else none)) := by
  rw [expressionPiece, Bool.and_false]
  rfl

variable [MathEngine σ] [MathEngine τ] [Steady σ] [Steady τ]

/-- Two pages of a preview stay in step. -/
theorem previewAlike_coupling (hread : ReadAlike σ τ) (hE : SurvivesPreview E) {v : Visit}
    (hv : v.calculate = false) : Coupling v (PreviewAlike (ρ := ρ) E flag) where
  visible h := h.visible
  mode h := congrArg Page.mode h.others
  write h _ := h.write _
  skipInputs count h :=
    ⟨congrArg (Page.skipInputs count) h.others, h.plots, h.cancel, h.engines⟩
  applyToggle t h := h.applyToggle hE v.calculate t
  setDecimals decimals h :=
    ⟨congrArg (Page.setDecimals decimals) h.others, h.plots, h.cancel, h.engines⟩
  parse text h := h.parse hread hE text
  parsed := by
    intro p q text h hok
    have hshown := hread.shown text p.inputs p.engine q.engine hok
    rw [h.inputs] at hshown
    refine ⟨?_, ?_⟩
    · rw [hv, expressionPiece_preview, expressionPiece_preview, Page.parse, Page.parse, h.inputs,
        h.settings]
      dsimp only
      rw [hshown.1, hshown.2]
    · rw [Page.parse, Page.parse, h.inputs]
      exact hshown.1
  calculate := by
    intro p q htrue
    rw [hv] at htrue
    cases htrue
  calculated := by
    intro p q htrue
    rw [hv] at htrue
    cases htrue

end Page

/-! ### A preview goes on with the next line -/

namespace Page

variable [MathEngine σ] {v : Visit} {p : Page σ ρ}

/-- In a preview, an expression fails only if it cannot be read. -/
theorem expression_preview (hv : v.calculate = false) (hread : ReadsSafely σ)
    (shows isCondition : Bool) (text : String) (payload : Payload) :
    (p.expression v shows isCondition text).1 ≠ .error (.crashed payload) := by
  have hparse : (p.parse text).1 ≠ .error (.crashed payload) := hread text p.inputs p.engine _
  rw [expression]
  generalize p.parse text = r at hparse ⊢
  rcases r with ⟨e | _, q⟩
  · intro h
    exact hparse (congrArg Except.error (Except.error.inj h))
  · have hshow : (q.showExpression shows false).1 = .ok () := by
      rw [showExpression, expressionPiece_preview]
      split <;> rfl
    dsimp only
    rw [hv, Bool.false_and, if_neg Bool.false_ne_true, hshow]
    intro h
    cases h

theorem walk_preview (hv : v.calculate = false) (hread : ReadsSafely σ)
    (shows isCondition : Bool) (rest : List Segment) (value : Option Complex) :
    ∃ result, (p.walk v shows isCondition rest value).1 = .ok result := by
  induction rest generalizing value p with
  | nil => exact ⟨value, rfl⟩
  | cons s rest ih =>
    have hexpression := expression_preview (p := p) hv hread shows isCondition s.text
    rw [walk]
    split
    · generalize p.expression v shows isCondition s.text = r at hexpression ⊢
      rcases r with ⟨(message | payload) | result, q⟩
      · exact ih none
      · exact absurd rfl (hexpression payload)
      · exact ih _
    · exact ih value

/-- In a preview, a line with segments reports nothing but what stands in its place. -/
theorem showLine_preview (hv : v.calculate = false) (hread : ReadsSafely σ)
    (word : Option BranchWord) (body : List Char) (c : Conditions) :
    (p.showLine v word body c).1 = .ok () := by
  obtain ⟨result, hsegments⟩ : ∃ result, (p.showSegments v word body).1 = .ok result := by
    rw [showSegments]
    dsimp only
    generalize segments (p.mode == .valueOnly) body = all
    generalize (p.visible && (!v.calculate || word.isNone)) = shows
    obtain ⟨result, hwalk⟩ := walk_preview hv hread shows word.isSome (leadingMarkup v all).2 none
      (p := p.writeIf shows (headPieces v word all ++ (leadingMarkup v all).1))
    generalize walk v shows word.isSome (leadingMarkup v all).2 none (p.writeIf _ _) = r
      at hwalk ⊢
    obtain ⟨outcome, q⟩ := r
    obtain rfl : outcome = .ok result := hwalk
    exact ⟨result, rfl⟩
  have hsettle : ∀ value, (settle false value c).1 = .ok () := by
    intro value
    unfold settle
    split <;> rfl
  rw [showLine]
  generalize p.showSegments v word body = r at hsegments ⊢
  obtain ⟨outcome, q⟩ := r
  obtain rfl : outcome = .ok result := hsegments
  dsimp only
  rw [hv, hsettle]
  rfl

end Page

namespace Pass

/-- The outcome of a line does not end the pass. -/
def GoesOn (r : Except Fault Unit) : Prop :=
  ∀ fault, r = .error fault → fault.isFatal = false

theorem goesOn_ok : GoesOn (.ok ()) := by
  intro fault h
  cases h

theorem goesOn_error {fault : Fault} (h : fault.isFatal = false) : GoesOn (.error fault) := by
  intro fault' h'
  obtain rfl := Except.error.inj h'
  exact h

variable [MathEngine σ]

theorem goesOn_previewRepeat {v : Visit} {p : Page σ ρ} (hread : ReadsSafely σ)
    (argument : List Char) : GoesOn (p.previewRepeat v argument).1 := by
  have hparse : ∀ payload, (p.parse (String.ofList argument)).1 ≠ .error (.crashed payload) :=
    hread _ p.inputs p.engine
  rw [Page.previewRepeat]
  split
  · exact goesOn_ok
  split
  · exact goesOn_ok
  generalize p.parse (String.ofList argument) = r at hparse ⊢
  rcases r with ⟨(message | payload) | _, q⟩
  · exact goesOn_error rfl
  · exact absurd rfl (hparse payload)
  · exact goesOn_ok

theorem goesOn_visitContent {v : Visit} (hv : v.calculate = false) (hread : ReadsSafely σ)
    (word : Option BranchWord) (body : List Char) (s : Pass σ ρ) :
    GoesOn (s.visitContent v word body).1 := by
  rw [visitContent]
  split
  · exact goesOn_error rfl
  · next c _ =>
    dsimp only
    unfold Page.content
    rw [hv, Bool.false_and, if_neg Bool.false_ne_true]
    rcases word with _ | word
    · dsimp only
      rw [Page.showLine_preview hv hread]
      exact goesOn_ok
    · dsimp only
      split
      · rw [Page.bareWord]
        split
        · exact goesOn_error rfl
        · exact goesOn_ok
      · rw [Bool.false_and, Bool.false_and, if_neg (by decide),
          Page.showLine_preview hv hread]
        exact goesOn_ok

variable [Plotter ρ σ]

/-- A line that leads to the next one does not end a preview without a plotter. -/
theorem goesOn_visitPlain {v : Visit} (hv : v.calculate = false) (hread : ReadsSafely σ)
    (index : Nat) (form : LineForm) {s : Pass σ ρ} (hplots : s.page.plots = none) :
    GoesOn (s.visitPlain v index form).1 := by
  cases form with
  | blank => exact goesOn_ok
  | toggle t => exact goesOn_ok
  | round argument =>
    show GoesOn (s.page.round v.calculate argument).1
    rw [Page.round, hv]
    split
    · exact goesOn_ok
    split
    · exact goesOn_ok
    · exact goesOn_ok
  | plot kind =>
    show GoesOn (s.page.plot v s.isLive kind).1
    rw [Page.plot, hplots]
    split
    · exact goesOn_ok
    · exact goesOn_error rfl
  | branch word rest => exact goesOn_visitContent hv hread (some word) rest s
  | content => exact goesOn_visitContent hv hread none v.chars s
  | loop word argument =>
    show GoesOn (s.enterLoop v index argument).1
    rw [enterLoop, hv]
    exact goesOn_previewRepeat hread argument

/-- After a visit, a preview without a plotter goes on with the next line. -/
theorem follow_preview (hread : ReadsSafely σ) (line : Line) (i : Nat) {s : Pass σ ρ}
    (hplots : s.page.plots = none) :
    ∃ t, follow line i (s.step false line i) = .go (i + 1) t := by
  have hplain := goesOn_visitPlain (v := s.visit false line i) rfl hread i line.form hplots
  rw [step]
  split
  · exact ⟨_, rfl⟩
  · exact ⟨_, rfl⟩
  · exact ⟨_, rfl⟩
  · dsimp only
    generalize s.visitPlain (s.visit false line i) i line.form = r at hplain ⊢
    rcases r with ⟨fault | _, t⟩
    · refine ⟨t.write [.lineError line.text (i + 1) fault.message], ?_⟩
      have hfatal : fault.isFatal = false := hplain fault rfl
      show (if fault.isFatal then _ else _) = _
      rw [hfatal]
      rfl
    · exact ⟨t, rfl⟩

/-! ### Whole previews -/

variable [MathEngine τ] [Plotter ρ τ] [Steady σ] [Steady τ] {E : σ → τ → Prop}
  {flag : CancelFlag} {lines : Array Line}

/-- Two previews without a plotter make the same step. -/
theorem tick_preview (hread : ReadAlike σ τ) (hE : SurvivesPreview E) (lines : Array Line)
    (j : Nat) {s : Pass σ ρ} {t : Pass τ ρ} (h : Coupled (Page.PreviewAlike E flag) s t) :
    (s.tick false lines j).Coupled (Page.PreviewAlike E flag) (t.tick false lines j) := by
  rw [tick, tick]
  rcases lines[j]? with _ | line
  · exact .done .completed h
  have hcancelled : s.isCancelled = t.isCancelled := by
    have hcancel : s.page.cancel = t.page.cancel := congrArg Page.cancel h.page.others
    rw [isCancelled, isCancelled, Steady.wantsStop, Steady.wantsStop, hcancel]
  dsimp only
  rw [hcancelled]
  split
  · exact .done .cancelled h
  have hcoupling : Coupling (s.visit false line j) (Page.PreviewAlike (ρ := ρ) E flag) :=
    Page.previewAlike_coupling hread hE rfl
  refine coupled_follow (fun hpq _ => hpq.write _) (hcoupling.step h ?_)
  -- without a plotter, a plot line is refused
  intro kind _
  have hplots : t.page.plots = none := by
    rw [← h.page.plots]
    exact (congrArg Page.plots h.page.others).symm
  rw [Page.plot, Page.plot, h.page.plots, hplots, h.page.visible, h.isLive]
  split
  · exact ⟨rfl, h.page⟩
  · exact ⟨rfl, h.page⟩

omit [Plotter ρ τ] in
/-- A preview that is not cancelled comes to its lines one after the other. -/
theorem after_preview (hread : ReadAlike σ σ) (hflag : flag.raised = false) (n : Nat) {j : Nat}
    {s : Pass σ ρ} (h : Coupled (Page.PreviewAlike (fun _ _ => True) flag) s s)
    (hn : j + n ≤ lines.size) :
    ∃ t, after false lines n j s = .go (j + n) t ∧
      Coupled (Page.PreviewAlike (fun _ _ => True) flag) t t := by
  induction n generalizing j s with
  | zero => exact ⟨s, rfl, h⟩
  | succ n ih =>
    have hl : lines[j]? = some lines[j] := Array.getElem?_eq_getElem (by omega)
    have hquiet : s.isCancelled = false := isCancelled_eq (by rw [h.page.cancel]; exact hflag)
    obtain ⟨t, ht⟩ := follow_preview hread.safe lines[j] j h.page.plots
    have htick : s.tick false lines j = .go (j + 1) t := by
      rw [tick, hl]
      dsimp only
      rw [hquiet]
      exact ht
    have hnext := tick_preview hread survivesPreview_true lines j h
    rw [htick] at hnext
    cases hnext with
    | go _ hcoupled =>
      rw [after, htick, show j + (n + 1) = j + 1 + n by omega]
      exact ih hcoupled (by omega)

end Pass

namespace Workbench

section

variable [MathEngine σ] [MathEngine τ] [Plotter ρ σ] [Plotter ρ τ] [Steady σ] [Steady τ]
  {E : σ → τ → Prop}

omit [MathEngine τ] [Plotter ρ τ] [Steady τ] in
/-- Unless it was cancelled beforehand, a preview without a plotter comes to each line after as
many steps as there are lines before it, and is completed after the last one. -/
theorem visits_preview (hread : ReadAlike σ σ) (source : String) (inputs : List String)
    {w : Workbench σ ρ} (hplots : w.plots = none) (hflag : w.cancel.raised = false) :
    (∀ i ≤ (Sheet.lines source).size, ∃ s,
      Pass.after false (Sheet.lines source) i 0 (w.startPass false inputs) = .go i s) ∧
    ((w.startPass false inputs).run false (Sheet.lines source) 0).1 = .completed := by
  have hstart : Pass.Coupled (Page.PreviewAlike (fun _ _ => True) w.cancel)
      (w.startPass false inputs) (w.startPass false inputs) :=
    ⟨rfl, rfl, rfl, hplots, rfl, trivial⟩
  have hafter : ∀ i ≤ (Sheet.lines source).size, ∃ s,
      Pass.after false (Sheet.lines source) i 0 (w.startPass false inputs) = .go i s := by
    intro i hi
    obtain ⟨s, hs, -⟩ := Pass.after_preview hread hflag i hstart (by rw [Nat.zero_add]; exact hi)
    rw [Nat.zero_add] at hs
    exact ⟨s, hs⟩
  refine ⟨hafter, ?_⟩
  -- the place after the last line is the end of the pass
  obtain ⟨s, hs⟩ := hafter _ (Nat.le_refl _)
  have hreaches := Pass.reaches_of_after (congrArg Pass.Progress.place? hs)
  have hdone : s.tick false (Sheet.lines source) (Sheet.lines source).size =
      .done .completed s := by
    rw [Pass.tick, Array.getElem?_eq_none (Nat.le_refl _)]
  rw [Pass.run_eq_of_reaches hreaches, Pass.run_of_done hdone]

/-- Two previews of a source that start alike write the same pieces, and end alike. -/
theorem pieces_preview (hread : ReadAlike σ τ) (hE : SurvivesPreview E) {flag : CancelFlag}
    {inputs : List String} {w : Workbench σ ρ} {w' : Workbench τ ρ}
    (hstart : Pass.Coupled (Page.PreviewAlike E flag) (w.startPass false inputs)
      (w'.startPass false inputs)) (source : String) :
    (w.pieces source false inputs).1 = (w'.pieces source false inputs).1 ∧
      (w.pieces source false inputs).2.page.PreviewAlike E flag
        (w'.pieces source false inputs).2.page := by
  have hafter := Pass.coupled_after
    (fun {j _ _} _ hu => Pass.tick_preview hread hE (Sheet.lines source) j hu) hstart
  obtain ⟨hending, hend⟩ := Pass.coupled_run hafter
  rw [pieces_eq, pieces_eq]
  dsimp only
  generalize (w.startPass false inputs).run false (Sheet.lines source) 0 = r,
    (w'.startPass false inputs).run false (Sheet.lines source) 0 = r' at hending hend ⊢
  have hunclosed : r.2.unclosed = r'.2.unclosed := by
    rw [Pass.unclosed, Pass.unclosed, hend.conditions, hend.loops]
  refine ⟨?_, hend.page⟩
  rw [hending, hend.page.output, hunclosed]

/-- Two previews of a source that start alike give the same markup and the same settings. -/
theorem compile_preview (hread : ReadAlike σ τ) (hE : SurvivesPreview E) {flag : CancelFlag}
    {inputs : List String} {w : Workbench σ ρ} {w' : Workbench τ ρ}
    (hstart : Pass.Coupled (Page.PreviewAlike E flag) (w.startPass false inputs)
      (w'.startPass false inputs)) (source : String) :
    let r := w.compile source false inputs
    let r' := w'.compile source false inputs
    r.1 = r'.1 ∧ r.2.settings = r'.2.settings ∧ E r.2.engine r'.2.engine := by
  obtain ⟨hpieces, hpage⟩ := pieces_preview hread hE hstart source
  have hsettings := hpage.settings
  refine ⟨?_, hsettings, hpage.engines⟩
  show Markup.fillUnits (render (w.pieces source false inputs).1)
      (w.pieces source false inputs).2.page.settings.units false = _
  rw [hpieces, hsettings]
  rfl

end

variable {ρ : Type} [Plotter ρ Arithmetic.Engine] [Plotter ρ (Logged Arithmetic.Engine)]

/-- **A preview evaluates nothing**, and does not depend on what the engine holds.  In every
preview without a plotter:

* unless it was cancelled beforehand, the pass is at line `i` after `i` steps, for each line,
  and is completed after the last one;
* the engine is asked for no calculation, and the values, the variables other than `Units` and
  the number of calculations stay as they were;
* with the engine in any other state, the markup is the same, and so are the settings that the
  pass leaves behind, the precision among them. -/
theorem preview_evaluates_nothing (source : String) (inputs : List String)
    (w : Workbench Arithmetic.Engine ρ) (hplots : w.plots = none) :
    let lines := Sheet.lines source
    let start := w.startPass false inputs
    let r := w.compile source false inputs
    let logged := w.logged.compile source false inputs
    (w.cancel.raised = false →
      (∀ i ≤ lines.size, ∃ s, Pass.after false lines i 0 start = .go i s) ∧
        (start.run false lines 0).1 = .completed) ∧
    (logged.1 = r.1 ∧ logged.2.engine.inner = r.2.engine ∧
      Evaluation.calculate ∉ logged.2.engine.evaluations) ∧
    (r.2.engine.calculations = w.engine.calculations ∧ r.2.engine.value = w.engine.value ∧
      ∀ name ≠ "Units", r.2.engine.store.get? name = w.engine.store.get? name) ∧
    ∀ e : Arithmetic.Engine,
      let w' : Workbench Arithmetic.Engine ρ := { w with engine := e }
      let other := w'.compile source false inputs
      other.1 = r.1 ∧ other.2.settings = r.2.settings := by
  have hread := Arithmetic.Engine.readAlike
  refine ⟨?_, ?_⟩
  · exact visits_preview hread source inputs hplots
  have hlogged : Pass.Coupled
      (Page.PreviewAlike (Arithmetic.Engine.Unspent (w.preparedEngine false)) w.cancel)
      (w.logged.startPass false inputs) (w.startPass false inputs) :=
    ⟨rfl, rfl, rfl, hplots, rfl, rfl, List.not_mem_nil, rfl, rfl, rfl⟩
  obtain ⟨hmarkup, -, hengine⟩ := compile_preview (Logged.readAlike hread)
    (Arithmetic.Engine.unspent_survives _) hlogged source
  refine ⟨⟨hmarkup, hengine.inner, hengine.evaluations⟩,
    ⟨hengine.calculations, hengine.value, ?_⟩, ?_⟩
  · intro name hname
    have hunits : (w.preparedEngine false).store.get? name = w.engine.store.get? name := by
      show (w.engine.store.set "Units" w.settings.unitsFactor).get? name = _
      rw [Arithmetic.Store.get?_set, if_neg hname]
    rw [hengine.store]
    exact hunits
  · intro e
    have hother : Pass.Coupled (Page.PreviewAlike (fun _ _ => True) w.cancel)
        (({ w with engine := e } : Workbench Arithmetic.Engine ρ).startPass false inputs)
        (w.startPass false inputs) :=
      ⟨rfl, rfl, rfl, hplots, rfl, trivial⟩
    obtain ⟨hmarkup, hsettings, -⟩ :=
      compile_preview hread survivesPreview_true hother source
    exact ⟨hmarkup, hsettings⟩

/-- An engine that was used: it holds a variable, a value and the text of an expression. -/
def usedEngine : Arithmetic.Engine :=
  { Arithmetic.Engine.initial with
    store := Arithmetic.Store.empty.set "x" 3.0
    display := "x + 4"
    value := 7.0
    calculated := true
    calculations := 1 }

/-- A sheet with a loop, a condition and an expression that cannot be read. -/
def looping : String :=
  "#repeat x\n#if x\nx = 1\n#end if\n1 +\n#loop"

/-- The preview of `looping` goes through its lines, and is the same for an engine that was used
and for one that was not. -/
theorem preview_evaluates_nothing_looping :
    fresh.plots = none ∧
      ((fresh.startPass false []).run false (Sheet.lines looping) 0).1 = .completed ∧
      (({ fresh with engine := usedEngine } : Workbench _ _).compile looping false []).1 =
        (fresh.compile looping false []).1 := by
  have h := preview_evaluates_nothing looping [] fresh rfl
  exact ⟨rfl, (h.1 rfl).2, (h.2.2.2 usedEngine).1⟩

end Workbench

end Worksheet
