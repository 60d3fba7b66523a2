/-
What a pass keeps.

Whatever a visit does to a page, it does by a few operations: it writes, passes over input
values, sets how things are shown and how precisely, and has the engine read and calculate; a
plot line has the plotter render.  A property of pages that these keep is kept by the visit, and
so by the whole pass, also if the pass is asked from outside to stop at some point.

* `Page.Invariant` — a property that is kept by what a visit does to a page;
* `Page.Invariant.step` — a visit to any line;
* `Pass.runUnder` — a pass while its flag may be raised from outside;
* `Pass.invariant_runUnder` — whole passes;
* `Pass.rounded_runUnder` — the settings, of which only the precision changes.
-/
import Worksheet.Proofs.Coupling
import Worksheet.Proofs.Steady

namespace Worksheet

variable {σ ρ : Type}

/-! ### Visits -/

/-- A property of pages that is kept by what a visit does to a page, plots aside. -/
structure Page.Invariant [MathEngine σ] (v : Visit) (I : Page σ ρ → Prop) : Prop where
  write : ∀ {p} (pieces : List Piece), I p → I (p.write pieces)
  skipInputs : ∀ {p} (count : Nat), I p → I (p.skipInputs count)
  applyToggle : ∀ {p} (t : Toggle), I p → I (p.applyToggle v.calculate t)
  setDecimals : ∀ {p} (decimals : Nat), I p → I (p.setDecimals decimals)
  parse : ∀ {p} (text : String), I p → I (p.parse text).2
  calculate : ∀ {p}, I p → I p.calculate.2

namespace Page

variable [MathEngine σ] {I : Page σ ρ → Prop}

/-- A property that is kept couples a page with itself. -/
theorem Invariant.coupling {v : Visit} (h : Invariant v I) :
    Coupling v fun p q : Page σ ρ => q = p ∧ I p where
  visible := by
    rintro p _ ⟨rfl, -⟩
    rfl
  mode := by
    rintro p _ ⟨rfl, -⟩
    rfl
  write := by
    rintro p _ pieces ⟨rfl, hp⟩ -
    exact ⟨rfl, h.write pieces hp⟩
  skipInputs := by
    rintro p _ count ⟨rfl, hp⟩
    exact ⟨rfl, h.skipInputs count hp⟩
  applyToggle := by
    rintro p _ t ⟨rfl, hp⟩
    exact ⟨rfl, h.applyToggle t hp⟩
  setDecimals := by
    rintro p _ decimals ⟨rfl, hp⟩
    exact ⟨rfl, h.setDecimals decimals hp⟩
  parse := by
    rintro p _ text ⟨rfl, hp⟩
    exact ⟨rfl, rfl, h.parse text hp⟩
  parsed := by
    rintro p _ text ⟨rfl, -⟩ -
    exact ⟨rfl, rfl⟩
  calculate := by
    rintro p _ - ⟨rfl, hp⟩
    exact ⟨rfl, rfl, h.calculate hp⟩
  calculated := by
    rintro p _ - ⟨rfl, -⟩
    exact ⟨rfl, rfl⟩

variable [Plotter ρ σ]

theorem Invariant.plot {v : Visit} {p : Page σ ρ} (h : Invariant v I)
    (hrender : ∀ request plots {p : Page σ ρ}, I p → I (p.renderPlot request plots).2)
    (hp : I p) (live : Bool) (kind : PlotKind) : I (p.plot v live kind).2 := by
  rw [Page.plot]
  split
  · exact hp
  rcases p.plots with _ | plots
  · exact hp
  · have hpage := hrender ⟨kind, String.ofList v.chars, v.calculate⟩ plots hp
    dsimp only
    generalize p.renderPlot ⟨kind, String.ofList v.chars, v.calculate⟩ plots = r at hpage ⊢
    rcases r with ⟨e | html, q⟩
    · exact hpage
    · exact h.write _ hpage

/-- A visit keeps what its operations keep. -/
theorem Invariant.step {calculate : Bool} {line : Line} {index : Nat} {s : Pass σ ρ}
    (h : Invariant (s.visit calculate line index) I) (hs : I s.page)
    (hplot : ∀ kind, line.form = .plot kind →
      I (s.page.plot (s.visit calculate line index) s.isLive kind).2) :
    I (s.step calculate line index).2.page := by
  have hself : Pass.Coupled (fun p q : Page σ ρ => q = p ∧ I p) s s := by
    constructor
    · rfl
    · rfl
    · exact ⟨rfl, hs⟩
  have hstep := h.coupling.step hself fun kind hkind => ⟨rfl, rfl, hplot kind hkind⟩
  exact hstep.2.page.2

omit [MathEngine σ] [Plotter ρ σ] in
/-- What follows from a step writes the report of a fault at most. -/
theorem invariant_follow {line : Line} {cursor : Nat} {r : Except Fault Flow × Pass σ ρ}
    (hwrite : ∀ {p} (pieces : List Piece), I p → I (p.write pieces)) (h : I r.2.page) :
    (∃ ending t, Pass.follow line cursor r = .done ending t ∧ I t.page) ∨
      ∃ next t, Pass.follow line cursor r = .go next t ∧ I t.page := by
  rcases r with ⟨fault | (_ | next | _), s⟩
  · rw [Pass.follow]
    split
    · exact .inl ⟨_, _, rfl, hwrite _ h⟩
    · exact .inr ⟨_, _, rfl, hwrite _ h⟩
  · exact .inr ⟨_, _, rfl, h⟩
  · exact .inr ⟨_, _, rfl, h⟩
  · exact .inl ⟨_, _, rfl, h⟩

end Page

/-! ### Passes that are asked from outside to stop -/

/-- Raises the flag of a pass, if somebody wants that. -/
def Page.interrupt (wanted : Bool) (p : Page σ ρ) : Page σ ρ :=
  { p with cancel := p.cancel.raiseIf wanted }

namespace Pass

/-- Raises the flag of a pass, if somebody wants that. -/
def interrupt (wanted : Bool) (s : Pass σ ρ) : Pass σ ρ :=
  { s with page := s.page.interrupt wanted }

theorem interrupt_false (s : Pass σ ρ) : s.interrupt false = s := by
  rw [interrupt, Page.interrupt, CancelFlag.raiseIf_false]

variable [MathEngine σ] [Plotter ρ σ]

/-- Visits lines from a position on until the pass ends, where `raises n` says whether somebody
raises the flag during step `n`, or, for zero, before the first step. -/
def runUnder (raises : Nat → Bool) (calculate : Bool) (lines : Array Line) (cursor : Nat)
    (s : Pass σ ρ) : Ending × Pass σ ρ :=
  match _h : (s.interrupt (raises 0)).tick calculate lines cursor with
  | .done ending t => (ending, t)
  | .go next t => t.runUnder (fun n => raises (n + 1)) calculate lines next
termination_by s.potential lines.size cursor
decreasing_by exact potential_tick (s := s.interrupt (raises 0)) _h

variable {raises : Nat → Bool} {calculate : Bool} {lines : Array Line} {i j : Nat}
  {s t : Pass σ ρ}

theorem runUnder_of_done {ending : Ending}
    (h : (s.interrupt (raises 0)).tick calculate lines i = .done ending t) :
    s.runUnder raises calculate lines i = (ending, t) := by
  rw [runUnder]
  split
  · next hd => rw [h] at hd; cases hd; rfl
  · next hg => rw [h] at hg; cases hg

theorem runUnder_of_go (h : (s.interrupt (raises 0)).tick calculate lines i = .go j t) :
    s.runUnder raises calculate lines i =
      t.runUnder (fun n => raises (n + 1)) calculate lines j := by
  rw [runUnder]
  split
  · next hd => rw [h] at hd; cases hd
  · next hg => rw [h] at hg; cases hg; rfl

/-- If nobody raises the flag, that is the pass by itself. -/
theorem runUnder_never (calculate : Bool) (lines : Array Line) (cursor : Nat) (s : Pass σ ρ) :
    s.runUnder (fun _ => false) calculate lines cursor = s.run calculate lines cursor := by
  fun_induction run calculate lines cursor s with
  | case1 cursor s ending t h =>
    apply runUnder_of_done
    rw [interrupt_false, h]
  | case2 cursor s next t h ih =>
    rw [runUnder_of_go (t := t) (j := next) (by rw [interrupt_false, h])]
    exact ih

/-- A pass keeps what its visits keep, whenever it is asked to stop. -/
theorem invariant_runUnder {I : Page σ ρ → Prop}
    (hvisit : ∀ v : Visit, v.calculate = calculate → Page.Invariant v I)
    (hrender : ∀ request plots {p : Page σ ρ}, I p → I (p.renderPlot request plots).2)
    (hinterrupt : ∀ n {p : Page σ ρ}, I p → I (p.interrupt (raises n)))
    (cursor : Nat) (hs : I s.page) :
    I (s.runUnder raises calculate lines cursor).2.page := by
  have htick : ∀ {s : Pass σ ρ} {cursor : Nat}, I s.page →
      (∃ ending t, s.tick calculate lines cursor = .done ending t ∧ I t.page) ∨
        ∃ next t, s.tick calculate lines cursor = .go next t ∧ I t.page := by
    intro s cursor hs
    rw [tick]
    split
    · exact .inl ⟨_, _, rfl, hs⟩
    · next line _ =>
      split
      · exact .inl ⟨_, _, rfl, hs⟩
      · have hinvariant := hvisit (s.visit calculate line cursor) rfl
        refine Page.invariant_follow hinvariant.write (hinvariant.step hs ?_)
        intro kind _
        exact hinvariant.plot hrender hs s.isLive kind
  fun_induction runUnder raises calculate lines cursor s with
  | case1 raises cursor s ending t h =>
    rcases htick (s := s.interrupt (raises 0)) (hinterrupt 0 hs) with
      ⟨_, _, heq, ht⟩ | ⟨_, _, heq, ht⟩
    · rw [h] at heq
      cases heq
      exact ht
    · rw [h] at heq
      cases heq
  | case2 raises cursor s next t h ih =>
    refine ih (fun n => hinterrupt (n + 1)) ?_
    rcases htick (s := s.interrupt (raises 0)) (hinterrupt 0 hs) with
      ⟨_, _, heq, ht⟩ | ⟨_, _, heq, ht⟩
    · rw [h] at heq
      cases heq
    · rw [h] at heq
      cases heq
      exact ht

end Pass

/-! ### The settings -/

/-- Settings that a pass may make of some settings: nothing but the precision is new, and it is
within its bound then. -/
structure Settings.Rounded (before after : Settings) : Prop where
  formatEquations : after.formatEquations = before.formatEquations
  units : after.units = before.units
  maxIterations : after.maxIterations = before.maxIterations
  decimals : after.decimals = before.decimals ∨ after.decimals ≤ maxDecimals

theorem Settings.Rounded.refl (s : Settings) : s.Rounded s := by
  constructor
  · rfl
  · rfl
  · rfl
  · exact .inl rfl

/-- A visit changes nothing in the settings but the precision. -/
theorem Page.rounded_invariant [MathEngine σ] (before : Settings) (v : Visit) :
    Invariant v fun p : Page σ ρ => before.Rounded p.settings where
  write _ h := h
  skipInputs _ h := h
  applyToggle := by
    intro p t h
    rcases t with (_ | _ | _ | _) | mode | mode | scope
    all_goals exact h
  setDecimals := by
    intro p decimals h
    refine ⟨h.formatEquations, h.units, h.maxIterations, .inr ?_⟩
    exact Nat.min_le_left maxDecimals decimals
  parse _ h := h
  calculate h := h

/-- A pass changes nothing in the settings but the precision. -/
theorem Pass.rounded_runUnder [MathEngine σ] [Plotter ρ σ] (raises : Nat → Bool)
    (calculate : Bool) (lines : Array Line) (cursor : Nat) (s : Pass σ ρ) :
    s.page.settings.Rounded (s.runUnder raises calculate lines cursor).2.page.settings := by
  refine invariant_runUnder (I := fun p => s.page.settings.Rounded p.settings) ?_ ?_ ?_ cursor
    (.refl _)
  · intro v _
    exact Page.rounded_invariant s.page.settings v
  · intro request plots p h
    exact h
  · intro n p h
    exact h

namespace Workbench

variable [MathEngine σ] [Plotter ρ σ]

/-- Compiles a source to markup, while the flag may be raised from outside. -/
def compileUnder (raises : Nat → Bool) (source : String) (calculate : Bool)
    (inputs : List String) (w : Workbench σ ρ) : String × Workbench σ ρ :=
  let (ending, s) :=
    (w.startPass calculate inputs).runUnder raises calculate (Sheet.lines source) 0
  let unclosed := if ending = .completed then s.unclosed else []
  (Markup.fillUnits (render (s.page.output.toList ++ unclosed)) s.page.settings.units calculate,
    { engine := s.page.engine, plots := s.page.plots, settings := s.page.settings,
      cancel := s.page.cancel })

/-- If nobody raises the flag, that is compiling the source. -/
theorem compileUnder_never (source : String) (calculate : Bool) (inputs : List String)
    (w : Workbench σ ρ) :
    w.compileUnder (fun _ => false) source calculate inputs =
      w.compile source calculate inputs := by
  rw [compileUnder, Pass.runUnder_never]
  rfl

end Workbench

end Worksheet
