/-
The tokens of an arithmetic expression.

An expression is cut into numbers, names, operators and brackets, with blanks
between them.  Operators are matched longest first, so `<=` is never read as `<`
and `=`.  Every placeholder takes a value from the input queue and becomes a
number.  Beside the tokens, reading gives the text to display: the expression with
the values in place of its placeholders.

* `Operator.read?` — the operator at the start of a text;
* `scan` — the first lexeme of a text;
* `tokens` — all tokens, with the text to display and the queue after reading.
-/
import Worksheet.Arithmetic.Error
import Worksheet.InputQueue
import Worksheet.Number.Read
import Worksheet.Text.Blank
import Worksheet.Text.Letter
import Worksheet.Text.Substitute

namespace Worksheet.Arithmetic

/-- The operators of an expression. -/
inductive Operator where
  | le
  | ge
  | eq
  | ne
  | add
  | sub
  | mul
  | div
  | pow
  | lt
  | gt
  | assign
  deriving DecidableEq, Repr

namespace Operator

/-- The characters that write an operator. -/
def symbol : Operator → List Char
  | .le => ['<', '=']
  | .ge => ['>', '=']
  | .eq => ['=', '=']
  | .ne => ['!', '=']
  | .add => ['+']
  | .sub => ['-']
  | .mul => ['*']
  | .div => ['/']
  | .pow => ['^']
  | .lt => ['<']
  | .gt => ['>']
  | .assign => ['=']

/-- All operators, those of two characters first. -/
def all : List Operator :=
  [.le, .ge, .eq, .ne, .add, .sub, .mul, .div, .pow, .lt, .gt, .assign]

/-- The longest operator at the start of a text, with what follows it. -/
def read? (cs : List Char) : Option (Operator × List Char) :=
  all.findSome? fun op => (Text.stripPrefix? op.symbol cs).map (op, ·)

theorem read?_append {cs rest : List Char} {op : Operator} (h : read? cs = some (op, rest)) :
    cs = op.symbol ++ rest := by
  obtain ⟨o, -, ho⟩ := List.exists_of_findSome?_eq_some h
  obtain ⟨r, hr, hp⟩ := Option.map_eq_some_iff.mp ho
  cases hp
  exact (Text.stripPrefix?_eq_some_iff _ _ _).mp hr

theorem symbol_ne_nil (op : Operator) : op.symbol ≠ [] := by
  cases op <;> simp [symbol]

end Operator

/-- A token of an expression. -/
inductive Token where
  | number (value : Float)
  | name (text : String)
  | operator (op : Operator)
  | openBracket
  | closeBracket

/-- A piece of an expression: the token it stands for, unless it is a blank, and
the characters that display it. -/
structure Lexeme where
  token : Option Token
  shown : List Char

/-- Whether a number can contain the character. -/
def inNumber (c : Char) : Bool :=
  c.isDigit || c == '.'

/-- The first lexeme of the text `c :: cs`, with what follows it. -/
def scan (queue : InputQueue) (c : Char) (cs : List Char) :
    Except ArithmeticError (Lexeme × List Char) × InputQueue :=
  if Text.isBlank c then (.ok (⟨none, [c]⟩, cs), queue)
  else if c = '?' then
    let (value, queue) := queue.next
    let shown := Text.trim value.toList
    match Number.readChars? shown with
    | some x => (.ok (⟨some (.number x), shown⟩, cs), queue)
    | none => (.error .missingInput, queue)
  else if inNumber c then
    let shown := c :: cs.takeWhile inNumber
    match Number.readChars? shown with
    | some x => (.ok (⟨some (.number x), shown⟩, cs.dropWhile inNumber), queue)
    | none => (.error (.invalidNumber (String.ofList shown)), queue)
  else if Text.startsName c then
    let shown := c :: cs.takeWhile Text.continuesName
    (.ok (⟨some (.name (String.ofList shown)), shown⟩, cs.dropWhile Text.continuesName), queue)
  else if c = '(' then (.ok (⟨some .openBracket, [c]⟩, cs), queue)
  else if c = ')' then (.ok (⟨some .closeBracket, [c]⟩, cs), queue)
  else
    match Operator.read? (c :: cs) with
    | some (op, rest) => (.ok (⟨some (.operator op), op.symbol⟩, rest), queue)
    | none => (.error (.invalidSymbol c), queue)

theorem length_dropWhile_le (p : Char → Bool) (cs : List Char) :
    (cs.dropWhile p).length ≤ cs.length := by
  induction cs with
  | nil => exact Nat.le_refl _
  | cons c cs ih =>
    rw [List.dropWhile_cons]
    split
    · exact Nat.le_succ_of_le ih
    · exact Nat.le_refl _

/-- A lexeme takes at least one character. -/
theorem scan_length {queue after : InputQueue} {c : Char} {cs rest : List Char}
    {lexeme : Lexeme} (h : scan queue c cs = (.ok (lexeme, rest), after)) :
    rest.length < (c :: cs).length := by
  have hdrop := fun p => length_dropWhile_le p cs
  unfold scan at h
  split at h
  · cases h
    exact Nat.lt_succ_self _
  split at h
  · dsimp only at h
    split at h
    · cases h
      exact Nat.lt_succ_self _
    · cases h
  split at h
  · dsimp only at h
    split at h
    · cases h
      exact Nat.lt_succ_of_le (hdrop _)
    · cases h
  split at h
  · cases h
    exact Nat.lt_succ_of_le (hdrop _)
  split at h
  · cases h
    exact Nat.lt_succ_self _
  split at h
  · cases h
    exact Nat.lt_succ_self _
  split at h
  · next op r hop =>
    cases h
    have hcs := Operator.read?_append hop
    have hne : 0 < op.symbol.length := List.length_pos_iff.mpr op.symbol_ne_nil
    rw [hcs, List.length_append]
    omega
  · cases h

/-- The lexemes of a text, up to the first error; the queue is the one after
reading in either case. -/
def lexemes (queue : InputQueue) (cs : List Char) :
    Except ArithmeticError (List Lexeme) × InputQueue :=
  match cs with
  | [] => (.ok [], queue)
  | c :: cs =>
    match _h : scan queue c cs with
    | (.error e, queue) => (.error e, queue)
    | (.ok (lexeme, rest), queue) =>
      let (outcome, queue) := lexemes queue rest
      (outcome.map (lexeme :: ·), queue)
termination_by cs.length
decreasing_by exact scan_length _h

/-- What is read from the text of an expression. -/
structure Reading where
  tokens : List Token
  /-- The text to display. -/
  display : List Char

/-- The tokens of an expression, of which there must be one. -/
def tokens (queue : InputQueue) (text : List Char) :
    Except ArithmeticError Reading × InputQueue :=
  match lexemes queue (Text.trim text) with
  | (.error e, queue) => (.error e, queue)
  | (.ok found, queue) =>
    let tokens := found.filterMap Lexeme.token
    if tokens.isEmpty then (.error .emptyExpression, queue)
    else (.ok ⟨tokens, found.flatMap Lexeme.shown⟩, queue)

end Worksheet.Arithmetic
