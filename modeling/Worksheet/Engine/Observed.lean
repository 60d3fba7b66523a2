/-
An engine under observation.

An observed engine forwards every call to the engine inside it.  On the way it can
note the calls that change something, crash at a chosen calculation, ask for
cancellation after a number of calculations, and give every result an imaginary
part of its own.  If it does nothing but note calls, it behaves like the engine
inside it, as long as the results of that one are real.
-/
import Worksheet.Engine

namespace Worksheet

/-- A call that changes an engine. -/
inductive Call where
  | parse (text : String)
  | calculate
  | setVariable (name : String) (value : Float)
  | setAngleMode (mode : AngleMode)
  | setCalculating (calculating : Bool)
  | setPlotting (plotting : Bool)

/-- How a chosen calculation fails and when cancellation is asked for. -/
structure Observation where
  /-- Whether calls are noted. -/
  traces : Bool := false
  /-- The calculation that crashes, counted from one, and what it leaves behind. -/
  crash : Option (Nat × Option String) := none
  /-- After how many successful calculations the pass is cancelled. -/
  cancelAfter : Option Nat := none
  /-- After how many successful calculations the engine asks to stop by itself. -/
  stopAfter : Option Nat := none
  /-- The imaginary part of every result. -/
  imaginary : Float := 0.0

/-- An engine together with what was observed. -/
structure Observed (σ : Type) where
  options : Observation
  inner : σ
  /-- How many calculations were asked for. -/
  attempts : Nat
  /-- How many of them succeeded. -/
  successes : Nat
  /-- The calls noted, the latest first. -/
  trace : List Call

namespace Observed

variable {σ : Type}

/-- An engine that has not been called yet. -/
def start (options : Observation) (inner : σ) : Observed σ :=
  ⟨options, inner, 0, 0, []⟩

/-- Notes a call. -/
def note (call : Call) (e : Observed σ) : Observed σ :=
  if e.options.traces then { e with trace := call :: e.trace } else e

/-- Forgets the calls noted so far. -/
def clearTrace (e : Observed σ) : Observed σ :=
  { e with trace := [] }

/-- Whether a count has reached its limit. -/
def reached (limit : Option Nat) (count : Nat) : Bool :=
  limit.elim false (· ≤ count)

/-- Forwards a call that changes nothing that is counted. -/
def forward (call : Call) (f : σ → σ) (e : Observed σ) : Observed σ :=
  let e := e.note call
  { e with inner := f e.inner }

/-- Forwards the reading of an expression. -/
def parse [MathEngine σ] (text : String) (inputs : InputQueue) (e : Observed σ) :
    Reply (Observed σ) × InputQueue :=
  let e := e.note (.parse text)
  let (reply, inputs) := MathEngine.parse text inputs e.inner
  ({ reply with engine := { e with inner := reply.engine } }, inputs)

/-- Forwards a calculation, unless it is the one that crashes. -/
def calculate [MathEngine σ] (e : Observed σ) : Reply (Observed σ) :=
  let e := e.note .calculate
  let e := { e with attempts := e.attempts + 1 }
  match e.options.crash with
  | some (attempt, payload) =>
    if e.attempts = attempt then { outcome := .error (.crashed payload), engine := e }
    else forwarded e
  | none => forwarded e
where
  /-- The calculation as such. -/
  forwarded (e : Observed σ) : Reply (Observed σ) :=
    let reply := MathEngine.calculate e.inner
    let e := { e with inner := reply.engine }
    match reply.outcome with
    | .error f => { outcome := .error f, engine := e, cancels := reply.cancels }
    | .ok () =>
      let e := { e with successes := e.successes + 1 }
      { outcome := .ok (), engine := e
        cancels := reply.cancels || reached e.options.cancelAfter e.successes }

instance [MathEngine σ] : MathEngine (Observed σ) where
  parse := parse
  calculate := calculate
  result e := ⟨(MathEngine.result e.inner).re, e.options.imaginary⟩
  html e := MathEngine.html e.inner
  xml e := MathEngine.xml e.inner
  resultText n e := MathEngine.resultText n e.inner
  setVariable name value := forward (.setVariable name value) (MathEngine.setVariable name value)
  angleMode e := MathEngine.angleMode e.inner
  setAngleMode mode := forward (.setAngleMode mode) (MathEngine.setAngleMode mode)
  setCalculating b := forward (.setCalculating b) (MathEngine.setCalculating b)
  setPlotting b := forward (.setPlotting b) (MathEngine.setPlotting b)
  wantsStop e :=
    reached e.options.stopAfter e.successes || MathEngine.wantsStop e.inner

end Observed

/-- An engine that is told neither whether a pass calculates nor whether a plot is
being rendered, and that never asks a pass to stop. -/
structure Uninformed (σ : Type) where
  inner : σ

namespace Uninformed

variable {σ : Type}

/-- The reply of the engine inside. -/
def wrap (reply : Reply σ) : Reply (Uninformed σ) :=
  { reply with engine := ⟨reply.engine⟩ }

instance [MathEngine σ] : MathEngine (Uninformed σ) where
  parse text inputs e :=
    let (reply, inputs) := MathEngine.parse text inputs e.inner
    (wrap reply, inputs)
  calculate e := wrap (MathEngine.calculate e.inner)
  result e := MathEngine.result e.inner
  html e := MathEngine.html e.inner
  xml e := MathEngine.xml e.inner
  resultText n e := MathEngine.resultText n e.inner
  setVariable name value e := ⟨MathEngine.setVariable name value e.inner⟩
  angleMode e := MathEngine.angleMode e.inner
  setAngleMode mode e := ⟨MathEngine.setAngleMode mode e.inner⟩

end Uninformed

end Worksheet
