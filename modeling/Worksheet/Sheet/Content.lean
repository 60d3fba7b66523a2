/-
Content lines and branch lines.

A content line shows its segments one after the other and evaluates its
expressions.  A line with a branch word does the same with what follows the word;
in a calculated sheet it shows nothing, and its last value settles the condition.

* `Page.expression` — reads, calculates and shows one expression;
* `Page.walk` — the segments of a line, with the value of the last expression;
* `Page.showSegments` — these segments between the tags of their line;
* `Page.content` — a whole line, once its branch word was entered.
-/
import Worksheet.Condition
import Worksheet.Segment
import Worksheet.Sheet.Page

namespace Worksheet.Page

variable {σ ρ : Type} [MathEngine σ]

/-- The piece that shows the expression read last; the engine can crash on showing its
value alone. -/
def expressionPiece (calculate : Bool) (p : Page σ ρ) : Except Failure Piece :=
  if p.mode == .valueOnly && calculate then
    ((MathEngine.resultText p.settings.decimals p.engine).map Piece.text).mapError .crashed
  else
    .ok (.equation (MathEngine.html p.engine)
      (if p.settings.formatEquations then some (MathEngine.xml p.engine) else none))

/-- Shows the expression read last, if it is to be shown. -/
def showExpression (shows calculate : Bool) (p : Page σ ρ) :
    Except Failure Unit × Page σ ρ :=
  if shows then
    match p.expressionPiece calculate with
    | .ok piece => (.ok (), p.write [piece])
    | .error e => (.error e, p)
  else (.ok (), p)

/-- Reads an expression, calculates it if that is asked for, and shows it.  Gives the
value if there is one.  A condition is calculated even where expressions are shown
uncalculated. -/
def expression (v : Visit) (shows isCondition : Bool) (text : String) (p : Page σ ρ) :
    Except Failure (Option Complex) × Page σ ρ :=
  match p.parse text with
  | (.error e, p) => (.error e, p)
  | (.ok (), p) =>
    if v.calculate && (p.mode != .uncalculated || isCondition) then
      match p.calculate with
      | (.error e, p) => (.error e, p)
      | (.ok (), p) =>
        let (outcome, p) := p.showExpression shows v.calculate
        (outcome.map fun _ => some (MathEngine.result p.engine), p)
    else
      let (outcome, p) := p.showExpression shows v.calculate
      (outcome.map fun _ => none, p)

/-- The text of a failed expression as its error quotes it; a preview shows input
controls in place of placeholders. -/
def quoted (calculate : Bool) (cs : List Char) : String :=
  let text := Text.trim cs
  String.ofList
    (if calculate then text else Text.replaceChar '?' Markup.inputControl.toList text)

/-- Shows segments one after the other, given the value so far.  An expression that
fails is reported in its place and takes the value away; only a crash ends the
walk. -/
def walk (v : Visit) (shows isCondition : Bool) :
    List Segment → Option Complex → Page σ ρ → Except Failure (Option Complex) × Page σ ρ
  | [], value, p => (.ok value, p)
  | s :: rest, value, p =>
    if s.kind = .expression then
      match p.expression v shows isCondition s.text with
      | (.ok result, p) => walk v shows isCondition rest (result <|> value) p
      | (.error (.refused message), p) =>
        walk v shows isCondition rest none
          (p.write [.lineError (quoted v.calculate s.chars) v.number message])
      | (.error (.crashed payload), p) => (.error (.crashed payload), p)
    else walk v shows isCondition rest value (p.writeIf shows [.text s.text])

/-- The tag that opens a line, given its first segment.  A line that starts with
markup has no tag of its own: its markup carries the anchor. -/
def openingPieces (v : Visit) : List Segment → List Piece
  | ⟨.heading, _⟩ :: _ => [.openHeading v.anchor]
  | ⟨.markup, _⟩ :: _ => []
  | _ => [.openParagraph v.anchor]

/-- The tag that closes a line, given its first segment. -/
def closingPieces : List Segment → List Piece
  | ⟨.heading, _⟩ :: _ => [.closeHeading]
  | ⟨.markup, _⟩ :: _ => []
  | _ => [.closeParagraph]

/-- The segments that are left once the markup at the start of a line was shown with
its anchor. -/
def leadingMarkup (v : Visit) : List Segment → List Piece × List Segment
  | ⟨.markup, chars⟩ :: rest => ([.markup (String.ofList chars) v.anchor], rest)
  | segments => ([], segments)

/-- Whether a branch word ends the body before it. -/
def endsBody : Option BranchWord → Bool
  | some .alternative => true
  | some .closing => true
  | _ => false

/-- Whether a branch word with a condition begins a body. -/
def beginsBody : Option BranchWord → Bool
  | some .opening => true
  | some .alternative => true
  | _ => false

/-- What a line writes before its segments.  The label of a branch word is only
written in a preview. -/
def headPieces (v : Visit) (word : Option BranchWord) (segments : List Segment) :
    List Piece :=
  (if endsBody word then [.dedent] else []) ++ openingPieces v segments ++
    (if v.calculate then [] else (word.map fun w => .label w.label).toList)

/-- What a line writes after its segments. -/
def tailPieces (word : Option BranchWord) (segments : List Segment) : List Piece :=
  closingPieces segments ++ (if beginsBody word then [.indent] else []) ++ [.lineEnd]

/-- Settles a condition that is pending by the value of its line.  A preview leaves it
without a value, and a condition that has none was reported before. -/
def settle (calculate : Bool) (value : Option Complex) (c : Conditions) :
    Except CalculationError Unit × Conditions :=
  if !c.pending then (.ok (), c)
  else if !calculate then (.ok (), c.waive)
  else
    match value with
    | some value => c.judge value
    | none => (.ok (), c.reject)

/-- Shows a line with segments; gives the value of its last expression, if that has
one. -/
def showSegments (v : Visit) (word : Option BranchWord) (body : List Char) (p : Page σ ρ) :
    Except Failure (Option Complex) × Page σ ρ :=
  let all := segments (p.mode == .valueOnly) body
  let shows := p.visible && (!v.calculate || word.isNone)
  let (markup, rest) := leadingMarkup v all
  let p := p.writeIf shows (headPieces v word all ++ markup)
  match p.walk v shows word.isSome rest none with
  | (.error e, p) => (.error e, p)
  | (.ok value, p) => (.ok value, p.writeIf shows (tailPieces word all))

/-- Shows a line with segments and settles its condition. -/
def showLine (v : Visit) (word : Option BranchWord) (body : List Char) (c : Conditions)
    (p : Page σ ρ) : Except Fault Unit × Conditions × Page σ ρ :=
  match p.showSegments v word body with
  | (.error e, p) => (.error e.fault, c, p)
  | (.ok value, p) =>
    let (outcome, c) := settle v.calculate value c
    (outcome.mapError .calculation, c, p)

/-- Shows a branch word that stands alone, which only `#else` and `#end if` may. -/
def bareWord (v : Visit) (word : BranchWord) (c : Conditions) (p : Page σ ρ) :
    Except Fault Unit × Conditions × Page σ ρ :=
  if c.pending then (.error (.structural .emptyCondition), c.reject, p)
  else
    let pieces :=
      [.dedent, .openParagraph v.anchor, .label word.label, .closeParagraph] ++
        if word = .otherwise then [.indent] else []
    (.ok (), c, p.writeIf (p.visible && !v.calculate) pieces)

/-- Processes a line whose branch word, if any, was entered.  A line that is not live
only moves past its input values; a further branch of a group that has matched is
not evaluated. -/
def content (v : Visit) (stopped : Bool) (word : Option BranchWord) (body : List Char)
    (c : Conditions) (p : Page σ ρ) : Except Fault Unit × Conditions × Page σ ρ :=
  if v.calculate && !(c.isTaken && !stopped) then
    (.ok (), c, p.skipInputs (placeholderCount v.chars))
  else
    match word with
    | none => p.showLine v none body c
    | some w =>
      if body.isEmpty then p.bareWord v w c
      else if v.calculate && c.matched && c.pending then (.ok (), c.reject, p)
      else p.showLine v (some w) body c

end Worksheet.Page
