/-
Reading a TOML document.

A document is a sequence of lines: an assignment to a key, a header that names the
table of the following assignments, or nothing, each perhaps with a comment.  The
result is the root table; whatever breaks the rules of the format makes the whole
document unreadable.

* `Toml.value` — a value, with a bound on how deeply arrays and tables nest;
* `Toml.document?` — the root table of a document.
-/
import Worksheet.Toml.Scalar

namespace Worksheet.Toml

/-- The depth at which arrays, tables and keys are refused. -/
def nestingLimit : Nat :=
  80

/-! ### Blanks, comments and keys -/

/-- What follows a comment at the start of a text, or the text itself. -/
def skipComment : List Char → List Char
  | '#' :: rest => rest.dropWhile isPlain
  | cs => cs

/-- What follows the rest of a line: blanks, perhaps a comment, and its end. -/
def endOfLine? (cs : List Char) : Option (List Char) :=
  match skipComment (skipSpaces cs) with
  | [] => some []
  | rest => lineBreak? rest

/-- A text without the blanks, line breaks and comments at its start. -/
def skipLines : Nat → List Char → List Char
  | 0, cs => cs
  | n + 1, cs =>
    match lineBreak? (skipComment (skipSpaces cs)) with
    | some rest => skipLines n rest
    | none => skipSpaces cs

/-- A text without all blanks, line breaks and comments at its start. -/
def skipAll (cs : List Char) : List Char :=
  skipLines (cs.length + 1) cs

/-- Whether a character can stand in a key without quotes. -/
def isBare (c : Char) : Bool :=
  c.isAlphanum || c == '-' || c == '_'

/-- A part of a key. -/
def keyPart (cs : List Char) : Option (String × List Char) :=
  match cs with
  | [] => none
  | c :: _ =>
    if c == '"' || c == '\'' then
      (lineString cs).map fun (text, rest) => (String.ofList text, rest)
    else
      let word := cs.takeWhile isBare
      if word.isEmpty then none else some (String.ofList word, cs.dropWhile isBare)

/-- The parts of a dotted key, with blanks around them. -/
def keyParts : Nat → List Char → Option (List String × List Char)
  | 0, _ => none
  | n + 1, cs => do
    let (part, rest) ← keyPart (skipSpaces cs)
    match skipSpaces rest with
    | '.' :: rest =>
      let (parts, rest) ← keyParts n rest
      some (part :: parts, rest)
    | rest => some ([part], rest)

/-- A dotted key, of a bounded number of parts. -/
def key (cs : List Char) : Option (List String × List Char) :=
  keyParts (nestingLimit - 1) cs

/-! ### Values -/

/-- The items of an array, after its opening bracket. -/
def arrayItems (item : Reader Node) : Nat → Reader (List Node)
  | 0, _ => none
  | n + 1, cs =>
    match skipAll cs with
    | ']' :: rest => some ([], rest)
    | cs => do
      let (node, rest) ← item cs
      match skipAll rest with
      | ',' :: rest =>
        let (nodes, rest) ← arrayItems item n rest
        some (node :: nodes, rest)
      | ']' :: rest => some ([node], rest)
      | _ => none

/-- The entries of a table in braces, from the first key on. -/
def braceEntries (item : Reader Node) : Nat → Entries → Reader Entries
  | 0, _, _ => none
  | n + 1, es, cs => do
    let (parts, rest) ← key cs
    let rest ← after? '=' rest
    let (node, rest) ← item (skipSpaces rest)
    let es ← es.assign parts node
    match skipSpaces rest with
    | ',' :: rest => braceEntries item n es rest
    | '}' :: rest => some (es, rest)
    | _ => none

/-- A table in braces, after its opening brace. -/
def braceTable (item : Reader Node) (cs : List Char) : Option (Entries × List Char) :=
  match skipSpaces cs with
  | '}' :: rest => some ([], rest)
  | cs => braceEntries item (cs.length + 1) [] cs

/-- A value in which arrays and tables are nested less deeply than a bound. -/
def value : Nat → Reader Node
  | n + 1, '[' :: rest => do
    let (nodes, rest) ← arrayItems (value n) (rest.length + 1) rest
    some (.array nodes, rest)
  | n + 1, '\x7b' :: rest => do
    let (es, rest) ← braceTable (value n) rest
    some (.table .inline es, rest)
  | _, cs => scalar cs

/-! ### Lines -/

/-- An assignment, with the end of its line. -/
def assignment (cs : List Char) : Option ((List String × Node) × List Char) := do
  let (parts, rest) ← key cs
  let rest ← after? '=' rest
  let (node, rest) ← value (nestingLimit - 1) (skipSpaces rest)
  let rest ← endOfLine? rest
  some ((parts, node), rest)

/-- The key in a header, with the end of its line. -/
def headerKey (closing : List Char) (cs : List Char) : Option (List String × List Char) := do
  let (parts, rest) ← key cs
  let rest ← Text.stripPrefix? closing rest
  let rest ← endOfLine? rest
  some (parts, rest)

/-- The lines of a document, given the table that the last header named and the root
so far. -/
def documentLines : Nat → List String → Entries → List Char → Option Entries
  | 0, _, _, _ => none
  | n + 1, header, root, cs =>
    match skipSpaces cs with
    | [] => some root
    | '#' :: rest => do
      let rest ← endOfLine? ('#' :: rest)
      documentLines n header root rest
    | '[' :: '[' :: rest => do
      let (parts, rest) ← headerKey [']', ']'] rest
      let root ← root.openElement parts
      documentLines n parts root rest
    | '[' :: rest => do
      let (parts, rest) ← headerKey [']'] rest
      let root ← root.openTable parts
      documentLines n parts root rest
    | cs =>
      match lineBreak? cs with
      | some rest => documentLines n header root rest
      | none => do
        let ((parts, node), rest) ← assignment cs
        let root ← root.assignIn header parts node
        documentLines n header root rest

/-- The root table of a document, which may start with a byte order mark. -/
def document? (source : String) : Option Entries :=
  let cs :=
    match source.toList with
    | '\ufeff' :: rest => rest
    | cs => cs
  documentLines (cs.length + 1) [] [] cs

end Worksheet.Toml
