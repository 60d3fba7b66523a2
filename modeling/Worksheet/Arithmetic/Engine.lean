/-
An engine for real arithmetic.

The engine knows real numbers, variables, the usual operations and comparisons, and
a few functions.  It shows an expression as its own text with the input values in
place, followed by the result once that was calculated.

* `Engine.parse` — reads an expression; a failure forgets the expression read
  before, but keeps its text on display;
* `Engine.calculate` — evaluates the expression read last in the variables of the engine;
* `Engine.resultText` — the value, unless too many decimals are asked for.
-/
import Worksheet.Arithmetic.Parser
import Worksheet.Engine
import Worksheet.Number.Fixed

namespace Worksheet.Arithmetic

/-- The state of the engine. -/
structure Engine where
  /-- The variables that are defined. -/
  store : Store
  /-- The expression read last, unless reading it failed. -/
  parsed : Option Expr
  /-- The text of the expression that was read successfully last. -/
  display : String
  /-- The value calculated last. -/
  value : Float
  /-- Whether the expression read last has been calculated. -/
  calculated : Bool
  angle : AngleMode
  calculating : Bool
  plotting : Bool
  /-- How many calculations succeeded. -/
  calculations : Nat

namespace Engine

/-- An engine that has not been used. -/
def initial : Engine where
  store := .empty
  parsed := none
  display := ""
  value := 0.0
  calculated := false
  angle := .degrees
  calculating := false
  plotting := false
  calculations := 0

/-- Escapes the characters that markup gives a meaning to. -/
def escapeChar : Char → List Char
  | '&' => "&amp;".toList
  | '<' => "&lt;".toList
  | '>' => "&gt;".toList
  | c => [c]

/-- Escapes a text for markup. -/
def escape (s : String) : String :=
  String.ofList (s.toList.flatMap escapeChar)

/-- Reads the expression that a text makes up, with the text to display. -/
def read (text : String) (inputs : InputQueue) :
    Except ArithmeticError (Expr × String) × InputQueue :=
  match tokens inputs text.toList with
  | (.error e, inputs) => (.error e, inputs)
  | (.ok reading, inputs) =>
    let display := String.ofList reading.display
    ((Expr.ofTokens display reading.tokens).map (·, display), inputs)

/-- Reads an expression and keeps it for calculation. -/
def parse (text : String) (inputs : InputQueue) (e : Engine) :
    Except ArithmeticError Unit × Engine × InputQueue :=
  let cleared := { e with parsed := none, calculated := false }
  match read text inputs with
  | (.error err, inputs) => (.error err, cleared, inputs)
  | (.ok (expr, display), inputs) =>
    (.ok (), { cleared with parsed := some expr, display }, inputs)

/-- Calculates the expression read last. -/
def calculate (e : Engine) : Except ArithmeticError Unit × Engine :=
  match e.parsed with
  | none => (.error .nothingToCalculate, e)
  | some expr =>
    match expr.eval e.angle e.store with
    | (.error err, store) => (.error err, { e with store })
    | (.ok value, store) =>
      (.ok (), { e with store, value, calculated := true, calculations := e.calculations + 1 })

/-- The expression read last, and its result once it was calculated. -/
def html (e : Engine) : String :=
  if e.calculated then escape e.display ++ " = " ++ Number.text e.value else escape e.display

/-- The expression read last, in structured form. -/
def xml (e : Engine) : String :=
  "<math>" ++ escape e.display ++ "</math>"

/-- The most decimals that a value is shown with. -/
def maxShownDecimals : Nat :=
  65535

/-- The value calculated last, with a number of decimals.  The engine crashes if there
are too many of them, whatever the value. -/
def resultText (decimals : Nat) (e : Engine) : Except Payload String :=
  if maxShownDecimals < decimals then .error (some "Formatting argument out of range")
  else .ok (Number.fixedText decimals e.value)

/-- The failure that an error is reported as. -/
def outcome (r : Except ArithmeticError Unit) : Except Failure Unit :=
  r.mapError fun e => .refused e.message

instance : MathEngine Engine where
  parse text inputs e :=
    let (r, e, inputs) := parse text inputs e
    ({ outcome := outcome r, engine := e }, inputs)
  calculate e :=
    let (r, e) := calculate e
    { outcome := outcome r, engine := e }
  result e := .ofReal e.value
  html := html
  xml := xml
  resultText := resultText
  setVariable name value e := { e with store := e.store.set name value }
  angleMode e := e.angle
  setAngleMode mode e := { e with angle := mode }
  setCalculating calculating e := { e with calculating }
  setPlotting plotting e := { e with plotting }

end Engine

end Worksheet.Arithmetic
