/-
Directives.

A directive is a line that starts with one of a fixed set of words, each with a
leading `#`.  Case does not matter, and the word has to end there: the line ends,
or goes on with a character that cannot continue a name.  Every other line that
happens to start with `#` is ordinary content.

Directives come in four families, which are handled apart everywhere else:
toggles change how the following lines are shown or calculated, branch words make
up `#if` groups, loop words make up `#repeat` blocks, and `#round` sets the
precision.

* `Directive.keyword` — the word of a directive;
* `Directive.ofLine?` — the directive that a line starts with.
-/
import Worksheet.Angle
import Worksheet.Text.Bytes
import Worksheet.Text.Letter

namespace Worksheet

/-- Where content is shown: nowhere, everywhere, only in a preview, or only in a
calculated sheet. -/
inductive Visibility where
  | hidden
  | shown
  | previewOnly
  | calculatedOnly
  deriving DecidableEq, Repr

/-- How expressions are shown: the equation with its result, the result alone, or
the equation without calculating it. -/
inductive OutputMode where
  | equation
  | valueOnly
  | uncalculated
  deriving DecidableEq, Repr, Inhabited

/-- Which variables later lines see.  The words are accepted; scoping itself is
left to the engine. -/
inductive Scope where
  | inner
  | outer
  deriving DecidableEq, Repr

/-- A directive that changes how the following lines are treated. -/
inductive Toggle where
  | visibility (visibility : Visibility)
  | output (mode : OutputMode)
  | angle (mode : AngleMode)
  | scope (scope : Scope)
  deriving DecidableEq, Repr

/-- The words of an `#if` group: the opening test, a further test, the branch
for when none matched, and the end. -/
inductive BranchWord where
  | opening
  | alternative
  | otherwise
  | closing
  deriving DecidableEq, Repr

/-- The words of a `#repeat` block: its two ends, leaving it, and going on with
its next iteration. -/
inductive LoopWord where
  | opening
  | closing
  | leave
  | next
  deriving DecidableEq, Repr

/-- What a line that starts with a directive word asks for. -/
inductive Directive where
  | toggle (toggle : Toggle)
  | branch (word : BranchWord)
  | loop (word : LoopWord)
  | round
  deriving DecidableEq, Repr

/-- The word that writes a branch directive. -/
def BranchWord.keyword : BranchWord → String
  | .opening => "#if"
  | .alternative => "#else if"
  | .otherwise => "#else"
  | .closing => "#end if"

/-- The word that writes a loop directive. -/
def LoopWord.keyword : LoopWord → String
  | .opening => "#repeat"
  | .closing => "#loop"
  | .leave => "#break"
  | .next => "#continue"

/-- The word that writes a toggle. -/
def Toggle.keyword : Toggle → String
  | .visibility .hidden => "#hide"
  | .visibility .shown => "#show"
  | .visibility .previewOnly => "#pre"
  | .visibility .calculatedOnly => "#post"
  | .output .valueOnly => "#val"
  | .output .equation => "#equ"
  | .output .uncalculated => "#noc"
  | .angle .degrees => "#deg"
  | .angle .radians => "#rad"
  | .angle .gradians => "#gra"
  | .scope .inner => "#local"
  | .scope .outer => "#global"

namespace Directive

/-- The word that writes a directive. -/
def keyword : Directive → String
  | .toggle t => t.keyword
  | .branch w => w.keyword
  | .loop w => w.keyword
  | .round => "#round"

/-- All directives; one whose word begins with the word of another stands before
it. -/
def all : List Directive :=
  [.branch .alternative, .branch .closing, .branch .otherwise, .branch .opening,
    .loop .opening, .loop .closing, .loop .leave, .loop .next, .round,
    .toggle (.visibility .hidden), .toggle (.visibility .shown),
    .toggle (.visibility .previewOnly), .toggle (.visibility .calculatedOnly),
    .toggle (.output .valueOnly), .toggle (.output .equation),
    .toggle (.output .uncalculated), .toggle (.angle .degrees),
    .toggle (.angle .radians), .toggle (.angle .gradians),
    .toggle (.scope .inner), .toggle (.scope .outer)]

theorem mem_all (d : Directive) : d ∈ all := by
  rcases d with (v | m | a | s) | w | w | _
  · cases v <;> decide
  · cases m <;> decide
  · cases a <;> decide
  · cases s <;> decide
  · cases w <;> decide
  · cases w <;> decide
  · decide

/-- The length of the word in bytes. -/
def keywordLength (d : Directive) : Nat :=
  Text.byteLength d.keyword.toList

/-- The branch word of a directive, if it belongs to an `#if` group. -/
def branchWord? : Directive → Option BranchWord
  | .branch w => some w
  | _ => none

/-- Whether the directive is a toggle. -/
def isToggle : Directive → Bool
  | .toggle _ => true
  | _ => false

end Directive

/-! ### Recognizing directives -/

/-- What follows a word at the start of a text, if it is there in some case; only
the letters of ASCII have a case here. -/
def stripWord? : List Char → List Char → Option (List Char)
  | [], cs => some cs
  | _ :: _, [] => none
  | w :: ws, c :: cs => if c.toLower = w then stripWord? ws cs else none

/-- Whether a word that is followed by this text ends there. -/
def endsWord : List Char → Bool
  | [] => true
  | c :: _ => !Text.continuesName c

namespace Directive

/-- What follows the word of a directive at the start of a text, if the word is
there and ends there. -/
def argument? (d : Directive) (cs : List Char) : Option (List Char) :=
  match stripWord? d.keyword.toList cs with
  | some rest => if endsWord rest then some rest else none
  | none => none

/-- The directive at the start of a text, with what follows its word. -/
def split? (cs : List Char) : Option (Directive × List Char) :=
  all.findSome? fun d => (d.argument? cs).map (d, ·)

/-- The directive that a line starts with, if any. -/
def ofLine? (line : String) : Option Directive :=
  (split? line.toList).map Prod.fst

end Directive

end Worksheet
