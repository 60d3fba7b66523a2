/-
What an engine is asked to read.

A recorder forwards every call to the engine inside it and notes each expression that it is
asked to read, with the queue that it is to take input values from.  Recording changes
nothing for the sheet (`Recorder.hom`).

Where an expression takes a value for each of its placeholders, the expressions of a line
are read one after the other, each from where the one before left the queue (`readings`).

* `Recorder` — an engine that notes what it is asked to read;
* `Page.Asks` — what is asked from one page to the next;
* `Page.asks_content` — what a line asks that is live and not passed over.
-/
import Worksheet.Proofs.Content
import Worksheet.Proofs.EngineHom
import Worksheet.Proofs.Placeholders

namespace Worksheet

/-- An expression that an engine is asked to read, and the queue to take values from. -/
structure Question where
  text : String
  inputs : InputQueue
  deriving DecidableEq, Repr

/-- An engine together with what it was asked to read. -/
structure Recorder (σ : Type) where
  inner : σ
  asked : List Question

namespace Recorder

variable {σ ρ : Type}

/-- An engine that was not asked anything yet. -/
def start (inner : σ) : Recorder σ :=
  ⟨inner, []⟩

/-- The reply of the engine inside. -/
def reply (asked : List Question) (r : Reply σ) : Reply (Recorder σ) :=
  r.map fun inner => ⟨inner, asked⟩

instance [MathEngine σ] : MathEngine (Recorder σ) where
  parse text inputs e :=
    let (r, rest) := MathEngine.parse text inputs e.inner
    (reply (e.asked ++ [⟨text, inputs⟩]) r, rest)
  calculate e := reply e.asked (MathEngine.calculate e.inner)
  result e := MathEngine.result e.inner
  html e := MathEngine.html e.inner
  xml e := MathEngine.xml e.inner
  resultText n e := MathEngine.resultText n e.inner
  setVariable name value e := { e with inner := MathEngine.setVariable name value e.inner }
  angleMode e := MathEngine.angleMode e.inner
  setAngleMode mode e := { e with inner := MathEngine.setAngleMode mode e.inner }
  setCalculating b e := { e with inner := MathEngine.setCalculating b e.inner }
  setPlotting b e := { e with inner := MathEngine.setPlotting b e.inner }
  wantsStop e := MathEngine.wantsStop e.inner

/-- Recording changes nothing: the engine inside is driven as it would be without. -/
theorem hom [MathEngine σ] : EngineHom SamplePlotter (inner : Recorder σ → σ) where
  parse _ _ _ := rfl
  calculate _ := rfl
  result _ := rfl
  html _ := rfl
  xml _ := rfl
  resultText _ _ := rfl
  setVariable _ _ _ := rfl
  setAngleMode _ _ := rfl
  setCalculating _ _ := rfl
  setPlotting _ _ := rfl
  wantsStop _ := rfl
  render := SamplePlotter.render_map (fun _ _ _ => rfl) (fun _ => rfl) (fun _ => rfl)

end Recorder

/-- A workbench whose engine is recorded. -/
def Workbench.recorded {σ ρ : Type} (w : Workbench σ ρ) : Workbench (Recorder σ) ρ :=
  w.map Recorder.start

/-- Compiling with a recorded engine gives the same markup, and leaves the engine inside as
it would be without. -/
theorem Workbench.compile_recorded {σ : Type} [MathEngine σ] (source : String)
    (calculate : Bool) (inputs : List String) (w : Workbench σ SamplePlotter) :
    w.compile source calculate inputs =
      ((w.recorded.compile source calculate inputs).1,
        (w.recorded.compile source calculate inputs).2.map Recorder.inner) :=
  Recorder.hom.compile source calculate inputs w.recorded

/-! ### Reading the expressions of a line -/

/-- What is asked to read some expressions one after the other. -/
def readings : InputQueue → List (List Char) → List Question
  | _, [] => []
  | q, e :: es => ⟨String.ofList e, q⟩ :: readings (q.skip (e.count '?')) es

/-- An expression is read from where all expressions before it left the queue. -/
theorem getElem?_readings (q : InputQueue) (es : List (List Char)) (m : Nat) :
    (readings q es)[m]? =
      es[m]?.map fun e => ⟨String.ofList e, q.skip (takenBy (es.take m))⟩ := by
  induction es generalizing q m with
  | nil => rfl
  | cons e es ih =>
    rcases m with _ | m
    · rfl
    · rw [readings, List.getElem?_cons_succ, List.getElem?_cons_succ, ih, List.take_succ_cons,
        takenBy_cons, InputQueue.skip_add]

/-- Reading an expression takes a value for each placeholder. -/
def Question.TakesAll (σ : Type) [MathEngine σ] (a : Question) : Prop :=
  ∀ e : σ, (MathEngine.parse a.text a.inputs e).2 = a.inputs.skip (a.text.toList.count '?')

namespace Page

variable {σ ρ : Type}

/-- From one page to another, an engine is asked to read some expressions one after the
other: all of them, unless it ended early, and then those at the start. -/
structure Asks (ended : Prop) (es : List (List Char)) (p q : Page (Recorder σ) ρ) : Prop where
  some : ∃ asked, q.engine.asked = p.engine.asked ++ asked ∧ asked <+: readings p.inputs es
  all : ¬ended → q.engine.asked = p.engine.asked ++ readings p.inputs es ∧
    q.inputs = p.inputs.skip (takenBy es)

namespace Asks

variable {ended ended' : Prop} {es : List (List Char)} {p q r : Page (Recorder σ) ρ}

/-- Nothing is asked where the engine and the queue stay as they are. -/
theorem none (hasked : q.engine.asked = p.engine.asked) (hinputs : q.inputs = p.inputs) :
    Asks ended [] p q where
  some := ⟨[], by rw [hasked, List.append_nil], List.nil_prefix⟩
  all _ := ⟨by rw [hasked, readings, List.append_nil], hinputs⟩

/-- One expression was read, and the others follow. -/
theorem cons {e : List Char}
    (hasked : q.engine.asked = p.engine.asked ++ [⟨String.ofList e, p.inputs⟩])
    (hinputs : q.inputs = p.inputs.skip (e.count '?')) (h : Asks ended es q r) :
    Asks ended (e :: es) p r := by
  obtain ⟨⟨asked, heq, hprefix⟩, hall⟩ := h
  rw [hasked, List.append_assoc] at heq hall
  rw [hinputs] at hprefix hall
  refine ⟨⟨_, heq, ?_⟩, ?_⟩
  · rw [readings, List.singleton_append]
    exact List.cons_prefix_cons.mpr ⟨rfl, hprefix⟩
  · intro hgoes
    obtain ⟨hasked', hinputs'⟩ := hall hgoes
    refine ⟨hasked', ?_⟩
    rw [hinputs', takenBy_cons, InputQueue.skip_add]

/-- One expression was being read when all ended. -/
theorem single {e : List Char} (hended : ended)
    (hasked : q.engine.asked = p.engine.asked ++ [⟨String.ofList e, p.inputs⟩]) :
    Asks ended (e :: es) p q where
  some := by
    refine ⟨_, hasked, ?_⟩
    rw [readings]
    exact List.cons_prefix_cons.mpr ⟨rfl, List.nil_prefix⟩
  all hgoes := absurd hended hgoes

theorem weaken (h : Asks ended es p q) (himp : ended → ended') : Asks ended' es p q :=
  ⟨h.some, fun hgoes => h.all fun hended => hgoes (himp hended)⟩

/-- Output that is written before or after makes no difference. -/
theorem congr {p' q' : Page (Recorder σ) ρ} (h : Asks ended es p q)
    (hp : p'.engine = p.engine ∧ p'.inputs = p.inputs)
    (hq : q'.engine = q.engine ∧ q'.inputs = q.inputs) : Asks ended es p' q' := by
  obtain ⟨hsome, hall⟩ := h
  constructor
  · rw [hp.1, hp.2, hq.1]
    exact hsome
  · rw [hp.1, hp.2, hq.1, hq.2]
    exact hall

end Asks

theorem writeIf_keeps (condition : Bool) (pieces : List Piece) (p : Page σ ρ) :
    (p.writeIf condition pieces).engine = p.engine ∧
      (p.writeIf condition pieces).inputs = p.inputs := by
  cases condition with
  | true => exact ⟨rfl, rfl⟩
  | false => exact ⟨rfl, rfl⟩

theorem showExpression_keeps [MathEngine σ] (shows calculate : Bool) (p : Page σ ρ) :
    (p.showExpression shows calculate).2.engine = p.engine ∧
      (p.showExpression shows calculate).2.inputs = p.inputs := by
  rw [showExpression]
  split
  · split
    · exact ⟨rfl, rfl⟩
    · exact ⟨rfl, rfl⟩
  · exact ⟨rfl, rfl⟩

theorem bareWord_keeps [MathEngine σ] (v : Visit) (word : BranchWord) (c : Conditions)
    (p : Page σ ρ) :
    (p.bareWord v word c).2.2.engine = p.engine ∧
      (p.bareWord v word c).2.2.inputs = p.inputs := by
  rw [bareWord]
  split
  · exact ⟨rfl, rfl⟩
  · exact writeIf_keeps _ _ p

variable [MathEngine σ]

/-- An expression is read once, whatever becomes of it. -/
theorem asked_expression (v : Visit) (shows isCondition : Bool) (text : String)
    (p : Page (Recorder σ) ρ) :
    (p.expression v shows isCondition text).2.engine.asked =
        p.engine.asked ++ [⟨text, p.inputs⟩] ∧
      (p.expression v shows isCondition text).2.inputs =
        (MathEngine.parse text p.inputs p.engine.inner).2 := by
  have hparse : (p.parse text).2.engine.asked = p.engine.asked ++ [⟨text, p.inputs⟩] ∧
      (p.parse text).2.inputs = (MathEngine.parse text p.inputs p.engine.inner).2 :=
    ⟨rfl, rfl⟩
  rw [expression]
  generalize p.parse text = r at hparse ⊢
  rcases r with ⟨e | _, q⟩
  · exact hparse
  · dsimp only at hparse ⊢
    split
    -- calculating and showing ask nothing
    · have hcalculate : q.calculate.2.engine.asked = q.engine.asked ∧
          q.calculate.2.inputs = q.inputs := ⟨rfl, rfl⟩
      generalize q.calculate = r at hcalculate ⊢
      rcases r with ⟨e | _, r⟩
      · dsimp only at hcalculate ⊢
        rw [hcalculate.1, hcalculate.2]
        exact hparse
      · obtain ⟨hengine, hinputs⟩ := showExpression_keeps shows v.calculate r
        dsimp only at hcalculate ⊢
        rw [hengine, hinputs, hcalculate.1, hcalculate.2]
        exact hparse
    · obtain ⟨hengine, hinputs⟩ := showExpression_keeps shows v.calculate q
      dsimp only
      rw [hengine, hinputs]
      exact hparse

/-- A walk over segments asks for their expressions. -/
theorem asks_walk (v : Visit) (shows isCondition : Bool) (rest : List Segment)
    (value : Option Complex) (p : Page (Recorder σ) ρ)
    (h : ∀ a ∈ (p.walk v shows isCondition rest value).2.engine.asked, a.TakesAll σ) :
    Asks (∃ e, (p.walk v shows isCondition rest value).1 = .error e) (expressionsAmong rest) p
      (p.walk v shows isCondition rest value).2 := by
  induction rest generalizing value p with
  | nil => exact .none rfl rfl
  | cons s rest ih =>
    obtain ⟨hasked, hinputs⟩ := asked_expression v shows isCondition s.text p
    rw [expressionsAmong]
    rw [walk] at h ⊢
    split
    · next hkind =>
      rw [if_pos hkind] at h
      generalize p.expression v shows isCondition s.text = result at h hasked hinputs ⊢
      -- the question for this expression is among all that are asked
      have hone : ∀ {q r : Page (Recorder σ) ρ} {ended : Prop},
          q.engine.asked = p.engine.asked ++ [⟨s.text, p.inputs⟩] →
          q.inputs = (MathEngine.parse s.text p.inputs p.engine.inner).2 →
          (∀ a ∈ r.engine.asked, a.TakesAll σ) →
          Asks ended (expressionsAmong rest) q r →
          Asks ended (s.chars :: expressionsAmong rest) p r := by
        intro q r ended hasked hinputs htakes hrest
        obtain ⟨asked, heq, -⟩ := hrest.some
        have hmem : (⟨s.text, p.inputs⟩ : Question) ∈ r.engine.asked := by
          rw [heq, hasked]
          simp
        refine .cons hasked ?_ hrest
        rw [hinputs, htakes _ hmem p.engine.inner]
        show p.inputs.skip ((String.ofList s.chars).toList.count '?') = _
        rw [String.toList_ofList]
      rcases result with ⟨(message | payload) | value', q⟩
      · exact hone (q := q.write _) hasked hinputs h (ih _ _ h)
      · exact .single ⟨_, rfl⟩ hasked
      · exact hone hasked hinputs h (ih _ _ h)
    · next hkind =>
      rw [if_neg hkind] at h
      exact (ih _ _ h).congr ⟨(writeIf_keeps _ _ p).1.symm, (writeIf_keeps _ _ p).2.symm⟩ ⟨rfl, rfl⟩

theorem expressionsAmong_leadingMarkup (v : Visit) (all : List Segment) :
    expressionsAmong (leadingMarkup v all).2 = expressionsAmong all := by
  unfold leadingMarkup
  split
  · rfl
  · rfl

/-- Showing a line asks for the expressions of its body. -/
theorem asks_showSegments (v : Visit) (word : Option BranchWord) (body : List Char)
    (p : Page (Recorder σ) ρ)
    (h : ∀ a ∈ (p.showSegments v word body).2.engine.asked, a.TakesAll σ) :
    Asks (∃ e, (p.showSegments v word body).1 = .error e) (expressionsOf body) p
      (p.showSegments v word body).2 := by
  rw [showSegments] at h ⊢
  dsimp only at h ⊢
  generalize (p.visible && (!v.calculate || word.isNone)) = shows at h ⊢
  generalize hall : segments (p.mode == .valueOnly) body = all at h ⊢
  generalize hq : p.writeIf shows (headPieces v word all ++ (leadingMarkup v all).1) = q at h ⊢
  have hkeeps : q.engine = p.engine ∧ q.inputs = p.inputs := by
    rw [← hq]
    exact writeIf_keeps _ _ p
  have hwalk := asks_walk v shows word.isSome (leadingMarkup v all).2 none q
  rw [expressionsAmong_leadingMarkup, ← hall, expressionsAmong_segments, hall] at hwalk
  generalize q.walk v shows word.isSome (leadingMarkup v all).2 none = r at h hwalk ⊢
  have hp : p.engine = q.engine ∧ p.inputs = q.inputs := ⟨hkeeps.1.symm, hkeeps.2.symm⟩
  rcases r with ⟨e | value, t⟩
  · exact (hwalk h).congr hp ⟨rfl, rfl⟩
  · have htail := writeIf_keeps shows (tailPieces word all) t
    dsimp only at h hwalk ⊢
    rw [htail.1] at h
    refine ((hwalk h).congr hp htail).weaken ?_
    rintro ⟨e, he⟩
    cases he

/-- A live line asks for the expressions of its body, unless it is a further test of a group
that has matched. -/
theorem asks_content {v : Visit} {stopped : Bool} {word : Option BranchWord}
    {body : List Char} {c : Conditions} {p : Page (Recorder σ) ρ}
    (hlive : (c.isTaken && !stopped) = true)
    (hopen : word = none ∨ body = [] ∨ (c.matched && c.pending) = false)
    (h : ∀ a ∈ (p.content v stopped word body c).2.2.engine.asked, a.TakesAll σ) :
    Asks (∃ fault, (p.content v stopped word body c).1 = .error fault ∧ fault.isFatal = true)
      (expressionsOf body) p (p.content v stopped word body c).2.2 := by
  have hline : ∀ word, (∀ a ∈ (p.showLine v word body c).2.2.engine.asked, a.TakesAll σ) →
      Asks (∃ fault, (p.showLine v word body c).1 = .error fault ∧ fault.isFatal = true)
        (expressionsOf body) p (p.showLine v word body c).2.2 := by
    intro word h
    have hasks := asks_showSegments v word body p
    rw [showLine] at h ⊢
    rcases hs : p.showSegments v word body with ⟨e | value, q⟩
    · obtain ⟨payload, rfl⟩ := showSegments_error hs
      rw [hs] at h hasks
      refine (hasks h).weaken ?_
      intro _
      exact ⟨_, rfl, rfl⟩
    · rw [hs] at h hasks
      refine (hasks h).weaken ?_
      rintro ⟨e, he⟩
      cases he
  -- the line is live, so it is not passed over
  have hskip : ¬(v.calculate && !(c.isTaken && !stopped)) = true := by
    rw [hlive, Bool.not_true, Bool.and_false]
    exact Bool.false_ne_true
  unfold content at h ⊢
  rw [if_neg hskip] at h ⊢
  rcases word with _ | word
  · exact hline none h
  · dsimp only at h ⊢
    rcases hbody : body.isEmpty with _ | _
    · rw [hbody] at h
      -- there is an expression, so its condition is tested
      have htested : ¬(v.calculate && c.matched && c.pending) = true := by
        rcases hopen with hopen | hopen | hopen
        · cases hopen
        · rw [hopen] at hbody
          cases hbody
        · rw [Bool.and_assoc, hopen, Bool.and_false]
          exact Bool.false_ne_true
      rw [if_neg Bool.false_ne_true, if_neg htested] at h ⊢
      exact hline (some word) h
    · obtain rfl : body = [] := by simpa using hbody
      obtain ⟨hengine, hinputs⟩ := bareWord_keeps v word c p
      rw [if_pos rfl]
      refine .none ?_ hinputs
      rw [hengine]

end Page

end Worksheet
