/-
The plain values of a TOML document: strings, numbers, and dates with times.

Every function of this module takes characters from the front of a text and gives
the rest back, or fails.  Integers have to fit in 64 bits, and a float must not be
too large; digits may be grouped by single underscores.  Dates and times are checked
for their ranges and then forgotten.
-/
import Worksheet.Number.Read
import Worksheet.Text.Substitute
import Worksheet.Toml.Node

namespace Worksheet.Toml

/-- A reader takes characters from the front of a text and gives the rest back. -/
abbrev Reader (α : Type) : Type :=
  List Char → Option (α × List Char)

/-- Whether a character is a space or a tab. -/
def isSpace (c : Char) : Bool :=
  c == ' ' || c == '\t'

/-- A text without the spaces and tabs at its start. -/
def skipSpaces (cs : List Char) : List Char :=
  cs.dropWhile isSpace

/-- What follows a line break at the start of a text. -/
def lineBreak? : List Char → Option (List Char)
  | '\n' :: rest => some rest
  | '\r' :: '\n' :: rest => some rest
  | _ => none

/-- Whether a character may stand in a string or a comment: no control character but
the tab. -/
def isPlain (c : Char) : Bool :=
  c == '\t' || (0x20 ≤ c.toNat && c.toNat != 0x7f)

/-! ### Strings -/

/-- Whether a character is a hexadecimal digit. -/
def isHexDigit (c : Char) : Bool :=
  c.isDigit || ('a' ≤ c.toLower && c.toLower ≤ 'f')

/-- The value of digits in some base up to sixteen. -/
def valueIn (base : Nat) (cs : List Char) : Nat :=
  cs.foldl (fun n c =>
    base * n + (if c.isDigit then c.toNat - '0'.toNat else c.toLower.toNat - 'a'.toNat + 10)) 0

/-- The character with a code point given in hexadecimal digits. -/
def scalar? (digits : List Char) : Option Char :=
  let value := valueIn 16 digits
  if digits.all isHexDigit && value.isValidChar then some (Char.ofNat value) else none

/-- What an escape stands for, after its backslash. -/
def escape? : Reader Char
  | 'b' :: rest => some ('\x08', rest)
  | 't' :: rest => some ('\t', rest)
  | 'n' :: rest => some ('\n', rest)
  | 'f' :: rest => some ('\x0c', rest)
  | 'r' :: rest => some ('\r', rest)
  | '"' :: rest => some ('"', rest)
  | '\\' :: rest => some ('\\', rest)
  | 'u' :: a :: b :: c :: d :: rest => (scalar? [a, b, c, d]).map (·, rest)
  | 'U' :: a :: b :: c :: d :: e :: f :: g :: h :: rest =>
    (scalar? [a, b, c, d, e, f, g, h]).map (·, rest)
  | _ => none

/-- A text without the blanks and line breaks at its start. -/
def skipBlankLines : List Char → List Char
  | ' ' :: rest => skipBlankLines rest
  | '\t' :: rest => skipBlankLines rest
  | '\n' :: rest => skipBlankLines rest
  | '\r' :: '\n' :: rest => skipBlankLines rest
  | cs => cs

/-- The rest of a string on one line, after its opening quote. -/
def basicBody : Nat → List Char → Reader (List Char)
  | 0, _, _ => none
  | _ + 1, read, '"' :: rest => some (read.reverse, rest)
  | n + 1, read, '\\' :: rest => do
    let (c, rest) ← escape? rest
    basicBody n (c :: read) rest
  | n + 1, read, c :: rest => if isPlain c then basicBody n (c :: read) rest else none
  | _ + 1, _, [] => none

/-- The rest of a literal string on one line, after its opening quote. -/
def literalBody : Reader (List Char)
  | '\'' :: rest => some ([], rest)
  | c :: rest =>
    if isPlain c then do
      let (cs, rest) ← literalBody rest
      some (c :: cs, rest)
    else none
  | [] => none

/-- The quotes at the start of a text end a string of several lines if there are three
of them; up to two more before these belong to the string. -/
def closingQuotes? (quote : Char) (cs : List Char) : Option (List Char × List Char) :=
  let count := (cs.takeWhile (· == quote)).length
  if count < 3 then none
  else
    let kept := min count 5 - 3
    some (cs.take kept, cs.drop (kept + 3))

/-- The rest of a string of several lines, after its opening quotes. -/
def basicLines : Nat → List Char → Reader (List Char)
  | 0, _, _ => none
  | n + 1, read, cs =>
    match closingQuotes? '"' cs, cs with
    | some (kept, rest), _ => some (read.reverse ++ kept, rest)
    | none, '\\' :: rest =>
      match lineBreak? (skipSpaces rest) with
      | some _ => basicLines n read (skipBlankLines rest)
      | none => do
        let (c, rest) ← escape? rest
        basicLines n (c :: read) rest
    | none, c :: rest =>
      match lineBreak? cs with
      | some after => basicLines n ('\n' :: read) after
      | none => if isPlain c then basicLines n (c :: read) rest else none
    | none, [] => none

/-- The rest of a literal string of several lines, after its opening quotes. -/
def literalLines : Nat → List Char → Reader (List Char)
  | 0, _, _ => none
  | n + 1, read, cs =>
    match closingQuotes? '\'' cs, cs with
    | some (kept, rest), _ => some (read.reverse ++ kept, rest)
    | none, c :: rest =>
      match lineBreak? cs with
      | some after => literalLines n ('\n' :: read) after
      | none => if isPlain c then literalLines n (c :: read) rest else none
    | none, [] => none

/-- A text without the line break at its start, if there is one. -/
def dropLineBreak (cs : List Char) : List Char :=
  (lineBreak? cs).getD cs

/-- A string on one line. -/
def lineString : Reader (List Char)
  | '"' :: rest => basicBody (rest.length + 1) [] rest
  | '\'' :: rest => literalBody rest
  | _ => none

/-- A string of either kind. -/
def string : Reader (List Char)
  | '"' :: '"' :: '"' :: rest => basicLines (rest.length + 1) [] (dropLineBreak rest)
  | '\'' :: '\'' :: '\'' :: rest => literalLines (rest.length + 1) [] (dropLineBreak rest)
  | cs => lineString cs

/-! ### Numbers -/

/-- Further digits after a first one, with single underscores between digits. -/
def moreDigits (isDigit : Char → Bool) : List Char → List Char × List Char
  | '_' :: c :: rest =>
    if isDigit c then
      let (cs, after) := moreDigits isDigit rest
      (c :: cs, after)
    else ([], '_' :: c :: rest)
  | c :: rest =>
    if isDigit c then
      let (cs, after) := moreDigits isDigit rest
      (c :: cs, after)
    else ([], c :: rest)
  | [] => ([], [])

/-- At least one digit, with single underscores between digits. -/
def digits (isDigit : Char → Bool) : Reader (List Char)
  | c :: rest =>
    if isDigit c then
      let (cs, after) := moreDigits isDigit rest
      some (c :: cs, after)
    else none
  | [] => none

/-- A sign, if there is one. -/
def signChars : List Char → List Char × List Char
  | '+' :: rest => (['+'], rest)
  | '-' :: rest => (['-'], rest)
  | cs => ([], cs)

/-- A whole decimal number without zeros at its start, as it is written. -/
def decimalDigits : Reader (List Char)
  | '0' :: rest => some (['0'], rest)
  | cs => digits Char.isDigit cs

/-- A whole number written in a base other than ten. -/
def basedInteger (base : Nat) (isDigit : Char → Bool) (cs : List Char) :
    Option (Node × List Char) := do
  let (ds, rest) ← digits isDigit cs
  let value := valueIn base ds
  if Number.fitsWord value then some (.integer value, rest) else none

/-- A whole number. -/
def integer : Reader Node
  | '0' :: 'x' :: rest =>
    basedInteger 16 isHexDigit rest
  | '0' :: 'o' :: rest => basedInteger 8 (fun c => '0' ≤ c && c ≤ '7') rest
  | '0' :: 'b' :: rest => basedInteger 2 (fun c => c == '0' || c == '1') rest
  | cs => do
    let (sign, body) := signChars cs
    let (ds, rest) ← decimalDigits body
    let value ← Number.readInteger? (sign ++ ds)
    if Number.fitsWord value then some (.integer value, rest) else none

/-- The exponent of a float, as it is written. -/
def exponentDigits : Reader (List Char)
  | c :: rest =>
    if c == 'e' || c == 'E' then do
      let (sign, body) := signChars rest
      let (ds, rest) ← digits Char.isDigit body
      some ('e' :: sign ++ ds, rest)
    else none
  | [] => none

/-- The fraction of a float, as it is written, with the exponent after it. -/
def fractionDigits : Reader (List Char)
  | '.' :: rest => do
    let (ds, rest) ← digits Char.isDigit rest
    match exponentDigits rest with
    | some (e, rest) => some ('.' :: ds ++ e, rest)
    | none => some ('.' :: ds, rest)
  | _ => none

/-- A float with a fraction, an exponent, or both.  It must not be too large; one far
below zero becomes infinite. -/
def plainFloat (cs : List Char) : Option (Node × List Char) := do
  let (sign, body) := signChars cs
  let (whole, rest) ← decimalDigits body
  let (tail, rest) ← (exponentDigits rest).or (fractionDigits rest)
  let value ← Number.readChars? (sign ++ whole ++ tail)
  if value == Number.ofMagnitude false Number.infinityBits then none
  else some (.float value, rest)

/-- Infinity or not a number, with a sign. -/
def specialFloat (cs : List Char) : Option (Node × List Char) :=
  let (sign, body) := signChars cs
  let negative := sign == ['-']
  match Text.stripPrefix? "inf".toList body, Text.stripPrefix? "nan".toList body with
  | some rest, _ => some (.float (Number.ofMagnitude negative Number.infinityBits), rest)
  | none, some rest =>
    some (.float (Number.ofMagnitude negative Number.nanBits), rest)
  | none, none => none

/-! ### Dates and times -/

/-- A number of a fixed number of digits within bounds. -/
def field (width low high : Nat) (cs : List Char) : Option (Nat × List Char) :=
  let ds := cs.take width
  let value := Number.ofDigits ds
  if ds.length = width ∧ ds.all Char.isDigit ∧ low ≤ value ∧ value ≤ high then
    some (value, cs.drop width)
  else none

/-- What follows a given character. -/
def after? (c : Char) : List Char → Option (List Char)
  | d :: rest => if d = c then some rest else none
  | [] => none

/-- The number of days in a month. -/
def daysIn (year month : Nat) : Nat :=
  if month = 2 then
    if year % 4 = 0 ∧ (year % 100 ≠ 0 ∨ year % 400 = 0) then 29 else 28
  else if month = 4 ∨ month = 6 ∨ month = 9 ∨ month = 11 then 30
  else 31

/-- What follows a date. -/
def date? (cs : List Char) : Option (List Char) := do
  let (year, rest) ← field 4 0 9999 cs
  let rest ← after? '-' rest
  let (month, rest) ← field 2 1 12 rest
  let rest ← after? '-' rest
  let (_, rest) ← field 2 1 (daysIn year month) rest
  some rest

/-- What follows a time of day. -/
def time? (cs : List Char) : Option (List Char) := do
  let (_, rest) ← field 2 0 23 cs
  let rest ← after? ':' rest
  let (_, rest) ← field 2 0 59 rest
  let rest ← after? ':' rest
  let (_, rest) ← field 2 0 60 rest
  match rest with
  | '.' :: c :: more => if c.isDigit then some (more.dropWhile Char.isDigit) else some rest
  | _ => some rest

/-- What follows an offset from universal time. -/
def offset? : List Char → Option (List Char)
  | 'Z' :: rest => some rest
  | 'z' :: rest => some rest
  | c :: rest =>
    if c == '+' || c == '-' then do
      let (_, rest) ← field 2 0 23 rest
      let rest ← after? ':' rest
      let (_, rest) ← field 2 0 59 rest
      some rest
    else none
  | [] => none

/-- What follows the time of day after a date, if there is one. -/
def timeOfDate : List Char → List Char
  | c :: rest =>
    if c == 'T' || c == 't' || c == ' ' then
      match time? rest with
      | some after => (offset? after).getD after
      | none => c :: rest
    else c :: rest
  | [] => []

/-- A date, a time, or both. -/
def dateTime (cs : List Char) : Option (Node × List Char) :=
  match date? cs with
  | some rest => some (.dateTime, timeOfDate rest)
  | none => (time? cs).map (.dateTime, ·)

/-- A date or a number. -/
def dateOrNumber (cs : List Char) : Option (Node × List Char) :=
  (dateTime cs).or ((plainFloat cs).or ((specialFloat cs).or (integer cs)))

/-- A value other than an array or a table. -/
def scalar (cs : List Char) : Option (Node × List Char) :=
  match cs with
  | [] => none
  | c :: _ =>
    if c == '"' || c == '\'' then
      (string cs).map fun (text, rest) => (.text (String.ofList text), rest)
    else
      match Text.stripPrefix? "true".toList cs, Text.stripPrefix? "false".toList cs with
      | some rest, _ => some (.boolean true, rest)
      | none, some rest => some (.boolean false, rest)
      | none, none => dateOrNumber cs

end Worksheet.Toml
