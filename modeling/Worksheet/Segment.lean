/-
The segments of a content line.

Single quotes enclose text, double quotes enclose a heading, and everything
outside quotes is an expression.  There is no nesting and no escaping: inside a
region, the quote of the other kind is an ordinary character.  A region that the
end of the line cuts off is complete.

A line is first cut into *runs*, which hold its characters and nothing else; the
runs that are worth showing then become segments, padded with blanks that keep
quoted words apart from their neighbours.

* `runs` — the quoted and unquoted runs of a line;
* `segments` — what is shown of them;
* `placeholderCount` — how many input values a line consumes.
-/
import Worksheet.Text.Blank
import Worksheet.Text.Bytes

namespace Worksheet

/-- What a quote encloses. -/
inductive Quote where
  | text
  | heading
  deriving DecidableEq, Repr

/-- The character that writes a quote. -/
def Quote.char : Quote → Char
  | .text => '\''
  | .heading => '"'

/-- The quote that a character is. -/
def Quote.ofChar? (c : Char) : Option Quote :=
  if c = '\'' then some .text else if c = '"' then some .heading else none

/-- A stretch of a line between delimiting quotes. -/
structure Run where
  /-- The quote that opened the run; none outside quotes. -/
  quote : Option Quote
  chars : List Char
  /-- Whether a quote ended the run, rather than the end of the line. -/
  closed : Bool
  deriving DecidableEq, Repr

/-- The runs of a line, given the quote that is open and the characters read since
the last delimiter, in reverse. -/
def runsFrom (quote : Option Quote) (read : List Char) : List Char → List Run
  | [] => [⟨quote, read.reverse, false⟩]
  | c :: cs =>
    match Quote.ofChar? c, quote with
    | none, _ => runsFrom quote (c :: read) cs
    | some q, none => ⟨none, read.reverse, true⟩ :: runsFrom (some q) [] cs
    | some q, some opened =>
      if q = opened then ⟨some opened, read.reverse, true⟩ :: runsFrom none [] cs
      else runsFrom quote (c :: read) cs

/-- The runs of a line; the first one lies outside quotes, and unquoted and quoted
ones take turns. -/
def runs (cs : List Char) : List Run :=
  runsFrom none [] cs

/-- Whether a run is worth a segment: an expression that is not blank, or a quoted
region that was closed or has content. -/
def Run.isShown (r : Run) : Bool :=
  match r.quote with
  | none => !(Text.trim r.chars).isEmpty
  | some _ => r.closed || !r.chars.isEmpty

/-- What a segment holds.  Markup is quoted text that starts with a tag. -/
inductive SegmentKind where
  | expression
  | heading
  | text
  | markup
  deriving DecidableEq, Repr

/-- A part of a content line. -/
structure Segment where
  kind : SegmentKind
  chars : List Char
  deriving DecidableEq, Repr

/-- The text of a segment. -/
def Segment.text (s : Segment) : String :=
  String.ofList s.chars

/-- Quoted content as it is shown: an empty region still takes up a space, and
blanks keep the others apart from their neighbours unless only values are
shown. -/
def pad (valueOnly first : Bool) (cs : List Char) : List Char :=
  if cs.isEmpty then [' ']
  else if valueOnly then cs
  else if first then cs ++ [' ']
  else ' ' :: cs ++ [' ']

/-- The segment of a run. -/
def Run.segment (valueOnly first : Bool) (r : Run) : Segment :=
  match r.quote with
  | none => ⟨.expression, r.chars⟩
  | some .heading => ⟨.heading, pad valueOnly first r.chars⟩
  | some .text =>
    let shown := pad valueOnly first r.chars
    ⟨if (Text.trimLeft shown).head? = some '<' then .markup else .text, shown⟩

/-- The segments of a line. -/
def segments (valueOnly : Bool) (cs : List Char) : List Segment :=
  match (runs cs).filter Run.isShown with
  | [] => []
  | r :: rs => r.segment valueOnly true :: rs.map (Run.segment valueOnly false)

/-- The segments of a line from a byte offset on; none if the offset lies inside a
character or beyond the end. -/
def segmentsFrom (line : String) (start : Nat) (valueOnly : Bool) : List Segment :=
  segments valueOnly ((Text.dropBytes? start line.toList).getD [])

/-! ### Placeholders -/

/-- The number of placeholders outside quotes; any quote switches between inside
and outside. -/
def countFrom : Bool → List Char → Nat
  | _, [] => 0
  | inside, c :: cs =>
    if (Quote.ofChar? c).isSome then countFrom (!inside) cs
    else if c = '?' && !inside then countFrom inside cs + 1
    else countFrom inside cs

/-- The number of input values that a line takes. -/
def placeholderCount (cs : List Char) : Nat :=
  countFrom false cs

end Worksheet
