/-
Small pieces of markup.

Every line is anchored by an `id` attribute with its number, and errors link back
to that anchor.  `withAttribute` puts an attribute into a tag that the author of
a sheet or a plotter wrote; `fillUnits` puts the length units in place of
`%u`, or in a preview a control to choose them.
-/
import Worksheet.Text.Substitute

namespace Worksheet.Markup

/-- The control that stands for a missing input value. -/
def inputControl : String :=
  "<input type=\"text\" size=\"2\" name=\"Var\">"

/-- The control that chooses the length units. -/
def unitsControl : String :=
  "<select id=\"Units\" name=\"Units\"><option value=\"m\"> m </option>" ++
    "<option value=\"cm\"> cm </option><option value=\"mm\"> mm </option></select>"

/-- The attribute that anchors a line. -/
def anchor (line : Nat) : String :=
  " id=\"line" ++ toString line ++ "\""

/-- A link to a line. -/
def anchorLink (line : Nat) : String :=
  "[<a href=\"#0\" data-text=\"" ++ toString line ++ "\">" ++ toString line ++ "</a>]"

/-- A paragraph that reports an error. -/
def errorNote (text : String) : String :=
  "<p class=\"err\">" ++ text ++ "</p>"

/-- A paragraph that reports an error in the text of a line. -/
def errorNoteAt (source : String) (line : Nat) (message : String) : String :=
  errorNote ("Error in \"" ++ source ++ "\" on line " ++ anchorLink line ++ ": " ++ message)

/-- Inserts an attribute at the end of a tag that lacks its closing bracket: before
a slash that ends it, blanks aside, or else at the very end. -/
def insertInTag (attr tag : List Char) : List Char :=
  let blanks := (tag.reverse.takeWhile (· == ' ')).reverse
  let inner := (tag.reverse.dropWhile (· == ' ')).reverse
  if inner.getLast? = some '/' then inner.dropLast ++ attr ++ '/' :: blanks
  else tag ++ attr

/-- Inserts an attribute into the tag that starts a fragment, before the first
closing bracket and a slash that goes with it.  A fragment that does not start
with a tag stays as it is. -/
def insertInFragment (attr fragment : List Char) : List Char :=
  match fragment with
  | '<' :: c :: _ =>
    if c.isAlpha && fragment.contains '>' then
      insertInTag attr (fragment.takeWhile (· != '>')) ++ fragment.dropWhile (· != '>')
    else fragment
  | _ => fragment

/-- Inserts an attribute into the tag that starts a fragment of markup. -/
def withAttribute (fragment attr : String) : String :=
  String.ofList (insertInFragment attr.toList fragment.toList)

/-- The mark that stands for the length units. -/
def unitsMark : List Char :=
  ['%', 'u']

/-- Puts the length units in place of their mark.  A preview shows them in a span
of their own and starts with the control to choose them, if the mark occurs. -/
def fillUnits (html units : String) (calculate : Bool) : String :=
  let chars := html.toList
  if !Text.contains unitsMark chars then html
  else if calculate then String.ofList (Text.replace unitsMark units.toList chars)
  else
    let span := "<span class=\"Units\">" ++ units ++ "</span>"
    unitsControl ++ String.ofList (Text.replace unitsMark span.toList chars)

end Worksheet.Markup
