/-
The output of a pass.

A pass writes a list of pieces: tags that open and close a paragraph, a heading or
an indented part, and what stands between them.  Only opening tags and markup carry
the anchor of a line, and errors keep the line and the text that they quote, so
that one can speak about anchors, containers and errors without taking markup
apart.  `render` turns the pieces into text.
-/
import Worksheet.Markup

namespace Worksheet

/-- A piece of output. -/
inductive Piece where
  /-- A paragraph begins. -/
  | openParagraph (anchor : Option Nat)
  /-- A paragraph for a directive begins. -/
  | openControl (anchor : Option Nat)
  | openHeading (anchor : Option Nat)
  | closeParagraph
  | closeHeading
  /-- The body of a block begins. -/
  | indent
  /-- The body of a block ends. -/
  | dedent
  /-- The word of a directive. -/
  | label (word : String)
  | text (content : String)
  /-- A fragment of markup written by the author or a plotter; the anchor goes
  into its first tag. -/
  | markup (fragment : String) (anchor : Option Nat)
  /-- An expression, perhaps with its structured form. -/
  | equation (html : String) (xml : Option String)
  | lineError (source : String) (line : Nat) (message : String)
  /-- An error that belongs to no line. -/
  | notice (message : String)
  | lineEnd
  deriving DecidableEq, Repr

namespace Piece

/-- The attribute for an anchor. -/
def anchorText (anchor : Option Nat) : String :=
  anchor.elim "" Markup.anchor

/-- The markup of a piece. -/
def html : Piece → String
  | openParagraph anchor => "<p" ++ anchorText anchor ++ ">"
  | openControl anchor => "<p" ++ anchorText anchor ++ " class=\"cond\">"
  | openHeading anchor => "<h3" ++ anchorText anchor ++ ">"
  | closeParagraph => "</p>"
  | closeHeading => "</h3>"
  | indent => "<div class=\"indent\">"
  | dedent => "</div>"
  | label word => "<span class=\"cond\">" ++ word ++ "</span>"
  | text content => content
  | markup fragment anchor => Markup.withAttribute fragment (anchorText anchor)
  | equation html none => "<span class=\"eq\">" ++ html ++ "</span>"
  | equation html (some xml) =>
    "<span class=\"eq\" data-xml='" ++ xml ++ "'>" ++ html ++ "</span>"
  | lineError source line message => Markup.errorNoteAt source line message
  | notice message => Markup.errorNote message
  | lineEnd => "\n"

/-- The anchor that a piece writes. -/
def anchor? : Piece → Option Nat
  | openParagraph anchor => anchor
  | openControl anchor => anchor
  | openHeading anchor => anchor
  | markup _ anchor => anchor
  | _ => none

/-- Whether a piece reports an error. -/
def isError : Piece → Bool
  | lineError .. => true
  | notice _ => true
  | _ => false

end Piece

/-- The markup of a list of pieces. -/
def render (pieces : List Piece) : String :=
  pieces.foldl (fun html piece => html ++ piece.html) ""

end Worksheet
