/-
The lines of a source.

A line ends at a carriage return, a line feed, or a carriage return followed by
a line feed, which count as one break.  A break at the very end starts no
further line.

* `splitLines` — the lines without their breaks;
* `joinBreaks` — the inverse: lines and their breaks, put together again.
-/

namespace Worksheet.Text

/-- The three ways to end a line. -/
inductive LineBreak where
  | lineFeed
  | carriageReturn
  | both
  deriving DecidableEq, Repr

/-- The characters of a line break. -/
def LineBreak.chars : LineBreak → List Char
  | .lineFeed => ['\n']
  | .carriageReturn => ['\r']
  | .both => ['\r', '\n']

/-- Lines paired with the breaks that end them; only the last one can lack a
break, and then it is not empty. -/
def brokenLines : List Char → List (List Char × Option LineBreak)
  | [] => []
  | '\r' :: '\n' :: rest => ([], some .both) :: brokenLines rest
  | '\r' :: rest => ([], some .carriageReturn) :: brokenLines rest
  | '\n' :: rest => ([], some .lineFeed) :: brokenLines rest
  | c :: rest =>
    match brokenLines rest with
    | [] => [([c], none)]
    | (line, ending) :: lines => (c :: line, ending) :: lines

/-- The text that lines and their breaks make up. -/
def joinBreaks : List (List Char × Option LineBreak) → List Char
  | [] => []
  | (line, ending) :: lines =>
    line ++ (ending.elim [] LineBreak.chars) ++ joinBreaks lines

/-- The lines of a text, without their breaks. -/
def splitLines (cs : List Char) : List (List Char) :=
  (brokenLines cs).map Prod.fst

/-- Cutting a text into lines loses nothing. -/
theorem joinBreaks_brokenLines (cs : List Char) : joinBreaks (brokenLines cs) = cs := by
  fun_induction brokenLines cs with
  | case1 => rfl
  | case2 rest ih => simp [joinBreaks, LineBreak.chars, ih]
  | case3 rest _ ih => simp [joinBreaks, LineBreak.chars, ih]
  | case4 rest ih => simp [joinBreaks, LineBreak.chars, ih]
  | case5 c rest _ _ _ h ih =>
    rw [h] at ih
    simp [joinBreaks, ← ih]
  | case6 c rest _ _ _ line ending lines h ih =>
    rw [h] at ih
    simp [joinBreaks, ← ih]

end Worksheet.Text
