/-
Sheets as trees of blocks.

A pass has no tree: it moves through the lines of a sheet with one state for all groups
and one stack for all loops.  A script is the tree that a well-nested sheet stands for,
and its run is what the tree means: a group runs the body of the first branch whose
condition holds, and a loop runs its body as often as its count says.  Nothing is ever
passed over, since what is not run is not visited.

* `Script.lines` — the lines that a script stands for;
* `Script.run` — what running a script makes of a page;
* `Workbench.compileScript` — compiling a script instead of a source.
-/
import Worksheet.Workbench

namespace Worksheet

/-- An expression that stands alone: it is not blank and has no quotes. -/
structure Expression where
  chars : List Char
  visible : Text.trim chars ≠ []
  unquoted : ∀ c ∈ chars, Quote.ofChar? c = none

mutual

/-- A sequence of lines and blocks.  Each line comes with its text, and the words of loops
with what follows them. -/
inductive Script where
  | done
  | blank (text : List Char) (rest : Script)
  | content (text : List Char) (rest : Script)
  | leave (text argument : List Char) (rest : Script)
  | next (text argument : List Char) (rest : Script)
  | group (text : List Char) (condition : Expression) (body : Script) (others : Alternatives)
    (rest : Script)
  | loop (text count : List Char) (body : Script) (endText endArgument : List Char)
    (rest : Script)

/-- The further branches of a group, up to its end. -/
inductive Alternatives where
  | closing (text : List Char)
  | otherwise (text : List Char) (body : Script) (endText : List Char)
  | tested (text : List Char) (condition : Expression) (body : Script) (others : Alternatives)

end

/-! ### The lines of a script -/

mutual

/-- The lines that a script stands for. -/
def Script.lines : Script → List Line
  | .done => []
  | .blank text rest => ⟨text, .blank⟩ :: rest.lines
  | .content text rest => ⟨text, .content⟩ :: rest.lines
  | .leave text argument rest => ⟨text, .loop .leave argument⟩ :: rest.lines
  | .next text argument rest => ⟨text, .loop .next argument⟩ :: rest.lines
  | .group text condition body others rest =>
    ⟨text, .branch .opening condition.chars⟩ :: (body.lines ++ (others.lines ++ rest.lines))
  | .loop text count body endText endArgument rest =>
    ⟨text, .loop .opening count⟩ ::
      (body.lines ++ ⟨endText, .loop .closing endArgument⟩ :: rest.lines)

/-- The lines of the further branches of a group and of its end. -/
def Alternatives.lines : Alternatives → List Line
  | .closing text => [⟨text, .branch .closing []⟩]
  | .otherwise text body endText =>
    ⟨text, .branch .otherwise []⟩ :: (body.lines ++ [⟨endText, .branch .closing []⟩])
  | .tested text condition body others =>
    ⟨text, .branch .alternative condition.chars⟩ :: (body.lines ++ others.lines)

end

/-- The number of lines of a script. -/
def Script.size (b : Script) : Nat :=
  b.lines.length

/-- The number of lines of the further branches of a group. -/
def Alternatives.size (a : Alternatives) : Nat :=
  a.lines.length

theorem Script.size_blank (text : List Char) (rest : Script) :
    (Script.blank text rest).size = rest.size + 1 := rfl

theorem Script.size_content (text : List Char) (rest : Script) :
    (Script.content text rest).size = rest.size + 1 := rfl

theorem Script.size_leave (text argument : List Char) (rest : Script) :
    (Script.leave text argument rest).size = rest.size + 1 := rfl

theorem Script.size_next (text argument : List Char) (rest : Script) :
    (Script.next text argument rest).size = rest.size + 1 := rfl

theorem Script.size_group (text : List Char) (condition : Expression) (body rest : Script)
    (others : Alternatives) :
    (Script.group text condition body others rest).size =
      1 + body.size + others.size + rest.size := by
  simp only [Script.size, Alternatives.size, Script.lines, List.length_cons, List.length_append]
  omega

theorem Script.size_loop (text count endText endArgument : List Char) (body rest : Script) :
    (Script.loop text count body endText endArgument rest).size =
      1 + body.size + 1 + rest.size := by
  simp only [Script.size, Script.lines, List.length_cons, List.length_append]
  omega

theorem Alternatives.size_otherwise (text endText : List Char) (body : Script) :
    (Alternatives.otherwise text body endText).size = 1 + body.size + 1 := by
  simp only [Script.size, Alternatives.size, Alternatives.lines, List.length_cons,
    List.length_append, List.length_nil]
  omega

theorem Alternatives.size_tested (text : List Char) (condition : Expression) (body : Script)
    (others : Alternatives) :
    (Alternatives.tested text condition body others).size = 1 + body.size + others.size := by
  simp only [Script.size, Alternatives.size, Alternatives.lines, List.length_cons,
    List.length_append]
  omega

/-! ### Conditions and counts -/

namespace Page

variable {σ ρ : Type}

/-- Reports a fault of a line at an index. -/
def report (text : List Char) (index : Nat) (cause : CalculationError) (p : Page σ ρ) :
    Page σ ρ :=
  p.write [.lineError (String.ofList text) (index + 1) cause.message]

/-- Ends a pass with the report of a crash. -/
def abort (e : Failure) (p : Page σ ρ) : Page σ ρ :=
  p.write [.notice e.fault.message]

/-- Whether a value counts as true, if it is a finite real number. -/
def truth (value : Complex) : Except CalculationError Bool :=
  if !value.isReal then .error .complexCondition
  else if !value.re.isFinite then .error (.invalidCondition value.re)
  else .ok (Conditions.truthThreshold < value.re.abs)

variable [MathEngine σ]

/-- Whether a condition holds.  One that fails is reported and does not hold; a crash is
all that leaves it without an answer. -/
def test (text : List Char) (condition : Expression) (index : Nat) (p : Page σ ρ) :
    Except Failure Bool × Page σ ρ :=
  match p.evaluate (String.ofList condition.chars) with
  | (.error (.crashed payload), p) => (.error (.crashed payload), p)
  | (.error (.refused message), p) =>
    (.ok false, p.report (Text.trim condition.chars) index (.reported message))
  | (.ok value, p) =>
    match truth value with
    | .ok holds => (.ok holds, p)
    | .error cause => (.ok false, p.report text index cause)

/-- How often a body is run.  A count that fails is reported and runs it no more than a
count of zero does. -/
def repetitions (unbounded : Nat) (text count : List Char) (index : Nat) (p : Page σ ρ) :
    Except Failure Nat × Page σ ρ :=
  if count.isEmpty then (.ok unbounded, p)
  else
    match p.evaluate (String.ofList count) with
    | (.error (.crashed payload), p) => (.error (.crashed payload), p)
    | (.error (.refused message), p) => (.ok 0, p.report text index (.reported message))
    | (.ok value, p) =>
      match countOfValue value.re with
      | .ok times => (.ok times, p)
      | .error cause => (.ok 0, p.report text index cause)

end Page

/-! ### Running a script -/

/-- How the run of a script ends. -/
inductive Exit where
  /-- Behind its last line. -/
  | through
  /-- At a `#break` that leaves the innermost loop around it. -/
  | leave
  /-- At a `#continue` that begins the next iteration of that loop. -/
  | next
  /-- With the whole pass. -/
  | ended
  deriving DecidableEq, Repr

variable {σ ρ : Type}

/-- Goes on behind a script, if its run comes there. -/
def andThen (r : Exit × Page σ ρ) (onward : Page σ ρ → Exit × Page σ ρ) : Exit × Page σ ρ :=
  match r with
  | (.through, p) => onward p
  | r => r

/-- Goes on with what the engine gave, or ends the pass if it crashed. -/
def orAbort {α : Type} (r : Except Failure α × Page σ ρ)
    (onward : α → Page σ ρ → Exit × Page σ ρ) : Exit × Page σ ρ :=
  match r with
  | (.error e, p) => (.ended, p.abort e)
  | (.ok a, p) => onward a p

/-- Runs a body a number of times, given whether the first of them is the first iteration
of all loops around it. -/
def cycle (body : Bool → Page σ ρ → Exit × Page σ ρ) :
    Nat → Bool → Page σ ρ → Exit × Page σ ρ
  | 0, _, p => (.through, p)
  | times + 1, first, p =>
    match body first p with
    | (.ended, p) => (.ended, p)
    | (.leave, p) => (.through, p)
    | (_, p) => cycle body times false p

/-- What a visit to a line of a script knows. -/
def scriptVisit (first : Bool) (index : Nat) (text : List Char) : Visit where
  calculate := true
  number := index + 1
  anchor := if first then some (index + 1) else none
  chars := text

/-- The pieces of a blank line. -/
def blankPieces (v : Visit) : List Piece :=
  [.openParagraph v.anchor, .text "&nbsp;", .closeParagraph, .lineEnd]

variable [MathEngine σ]

mutual

/-- Runs a script whose first line is at an index, given the iterations of a loop without a
count, whether a loop is around the script, and whether all these loops are in their first
iteration. -/
def Script.run (unbounded : Nat) (inLoop first : Bool) (index : Nat) :
    Script → Page σ ρ → Exit × Page σ ρ
  | .done, p => (.through, p)
  | .blank text rest, p =>
    rest.run unbounded inLoop first (index + 1)
      (p.writeIf p.visible (blankPieces (scriptVisit first index text)))
  | .content text rest, p =>
    orAbort (p.showSegments (scriptVisit first index text) none text) fun _ p =>
      rest.run unbounded inLoop first (index + 1) p
  | .leave _ _ _, p => (if inLoop then .leave else .ended, p)
  | .next text _ rest, p =>
    if inLoop then (.next, p)
    else
      rest.run unbounded inLoop first (index + 1)
        (p.write [.lineError (String.ofList text) (index + 1)
          StructureError.continueWithoutRepeat.message])
  | .group text condition body others rest, p =>
    orAbort (p.test text condition index) fun holds p =>
      andThen
        (if holds then body.run unbounded inLoop first (index + 1) p
          else others.run unbounded inLoop first (index + 1 + body.size) p)
        fun p => rest.run unbounded inLoop first (index + 1 + body.size + others.size) p
  | .loop text count body _ _ rest, p =>
    orAbort (p.repetitions unbounded text count index) fun times p =>
      andThen (cycle (fun first => body.run unbounded true first (index + 1)) times first p)
        fun p => rest.run unbounded inLoop first (index + 1 + body.size + 1) p

/-- Runs the first of some further branches of a group that is to be taken. -/
def Alternatives.run (unbounded : Nat) (inLoop first : Bool) (index : Nat) :
    Alternatives → Page σ ρ → Exit × Page σ ρ
  | .closing _, p => (.through, p)
  | .otherwise _ body _, p => body.run unbounded inLoop first (index + 1) p
  | .tested text condition body others, p =>
    orAbort (p.test text condition index) fun holds p =>
      if holds then body.run unbounded inLoop first (index + 1) p
      else others.run unbounded inLoop first (index + 1 + body.size) p

end

namespace Workbench

variable [Plotter ρ σ]

end Workbench

end Worksheet
