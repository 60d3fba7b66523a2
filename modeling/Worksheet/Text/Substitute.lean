/-
Replacing parts of a text.

`replace` substitutes every occurrence of a pattern, from left to right and
without looking again at what it has put in; `contains` tells whether there is
one.  `replaceChar` is the same for a single character.
-/

namespace Worksheet.Text

/-- What follows `pattern` at the start of a text, if it is there. -/
def stripPrefix? : List Char → List Char → Option (List Char)
  | [], cs => some cs
  | _ :: _, [] => none
  | p :: ps, c :: cs => if c = p then stripPrefix? ps cs else none

theorem stripPrefix?_eq_some_iff (pattern cs rest : List Char) :
    stripPrefix? pattern cs = some rest ↔ cs = pattern ++ rest := by
  induction pattern generalizing cs with
  | nil => simp [stripPrefix?, eq_comm]
  | cons p ps ih =>
    cases cs with
    | nil => simp [stripPrefix?]
    | cons c cs =>
      by_cases h : c = p
      · simp [stripPrefix?, h, ih]
      · simp [stripPrefix?, h]

/-- Whether the pattern occurs in the text. -/
def contains (pattern : List Char) : List Char → Bool
  | [] => pattern.isEmpty
  | c :: cs => (stripPrefix? pattern (c :: cs)).isSome || contains pattern cs

/-- Walks over a text and substitutes every occurrence of a pattern; `skip`
characters still belong to the occurrence met last. -/
def replaceFrom (pattern substitute : List Char) : Nat → List Char → List Char
  | _, [] => []
  | skip + 1, _ :: cs => replaceFrom pattern substitute skip cs
  | 0, c :: cs =>
    if (stripPrefix? pattern (c :: cs)).isSome then
      substitute ++ replaceFrom pattern substitute (pattern.length - 1) cs
    else c :: replaceFrom pattern substitute 0 cs

/-- The text with every occurrence of a pattern, which is not empty, replaced
from left to right. -/
def replace (pattern substitute cs : List Char) : List Char :=
  replaceFrom pattern substitute 0 cs

/-- The text with every occurrence of a character replaced. -/
def replaceChar (c : Char) (substitute : List Char) (cs : List Char) : List Char :=
  cs.flatMap fun d => if d = c then substitute else [d]

theorem replaceChar_append (c : Char) (substitute xs ys : List Char) :
    replaceChar c substitute (xs ++ ys) =
      replaceChar c substitute xs ++ replaceChar c substitute ys := by
  simp [replaceChar]

end Worksheet.Text
