/-
The lines of a sheet.

What a line asks for can be told from its text alone: nothing, if it is blank; a
directive, if it starts with one; a plot; or else content.  So a sheet is read
once, before the first line is processed, however often a loop comes back to it.
-/
import Worksheet.Directive
import Worksheet.Plot
import Worksheet.Text.Blank
import Worksheet.Text.Lines

namespace Worksheet

/-- What a line asks for. -/
inductive LineForm where
  | blank
  | toggle (toggle : Toggle)
  /-- `#round` with its argument. -/
  | round (argument : List Char)
  /-- A loop word with what follows it; only `#repeat` makes use of that. -/
  | loop (word : LoopWord) (argument : List Char)
  | plot (kind : PlotKind)
  /-- A branch word with what follows it. -/
  | branch (word : BranchWord) (rest : List Char)
  | content
  deriving DecidableEq, Repr

/-- What a line without blanks around it asks for. -/
def LineForm.ofChars (cs : List Char) : LineForm :=
  match cs, Directive.split? cs with
  | [], _ => .blank
  | _, some (.toggle t, _) => .toggle t
  | _, some (.round, rest) => .round (Text.trim rest)
  | _, some (.loop word, rest) => .loop word (Text.trim rest)
  | _, some (.branch word, rest) => .branch word rest
  | _, none =>
    match PlotKind.ofLine? (cs.map Char.toLower) with
    | some kind => .plot kind
    | none => .content

/-- A line of a sheet. -/
structure Line where
  /-- The text of the line, without the blanks around it. -/
  chars : List Char
  form : LineForm
  deriving DecidableEq, Repr

namespace Line

/-- Reads a line. -/
def ofChars (raw : List Char) : Line :=
  let chars := Text.trim raw
  ⟨chars, .ofChars chars⟩

/-- The text of the line, as errors quote it. -/
def text (l : Line) : String :=
  String.ofList l.chars

end Line

/-- The lines of a source. -/
def Sheet.lines (source : String) : Array Line :=
  ((Text.splitLines source.toList).map Line.ofChars).toArray

end Worksheet
