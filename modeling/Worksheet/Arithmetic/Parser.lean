/-
Reading arithmetic expressions from tokens.

From loose to tight, the levels are comparisons (at most one), sums, products,
powers and negation; sums and products group to the left, powers to the right, and
a minus sign binds tighter than a power.  At the start of the whole, a name and `=`
assign the value of what follows.

Each level is a reader on top of the next tighter one, and brackets lead back to
the loosest level.  `expression` ties this knot: its first argument bounds how
deeply brackets are nested, and the length of the token list is always enough.

* `chain` — operands separated by operators of one level;
* `comparison` — the loosest level, given a reader for what stands in brackets;
* `Expr.ofTokens` — the expression that a whole list of tokens makes up.
-/
import Worksheet.Arithmetic.Expr

namespace Worksheet.Arithmetic

/-- A reader takes tokens from the front of a list and gives the rest back. -/
abbrev Reader (α : Type) : Type :=
  List Token → Except ArithmeticError (α × List Token)

/-- The operators of one level of the grammar. -/
abbrev Level : Type :=
  List Operator

/-- Comparisons. -/
def comparisons : Level :=
  [.lt, .gt, .le, .ge, .eq, .ne]

/-- Sums and differences. -/
def sums : Level :=
  [.add, .sub]

/-- Products and quotients. -/
def products : Level :=
  [.mul, .div]

/-- Powers. -/
def powers : Level :=
  [.pow]

/-- The operator of a level that a token is. -/
def Level.operator? (level : Level) : Token → Option Operator
  | .operator op => if op ∈ level then some op else none
  | _ => none

/-! ### Chains of operands -/

/-- An operand, and further operands each after an operator. -/
structure Chain where
  head : Expr
  tail : List (Operator × Expr)

/-- Groups a chain to the left. -/
def Chain.toLeft (c : Chain) : Expr :=
  c.tail.foldl (fun e (op, x) => .binary op e x) c.head

/-- Groups operands to the right. -/
def groupRight : Expr → List (Operator × Expr) → Expr
  | e, [] => e
  | e, (op, x) :: rest => .binary op e (groupRight x rest)

/-- Groups a chain to the right. -/
def Chain.toRight (c : Chain) : Expr :=
  groupRight c.head c.tail

/-- Reads at most a number of operands separated by the operators of a level. -/
def chainUpTo (level : Level) (operand : Reader Expr) : Nat → Reader Chain
  | 0, _ => .error .incompleteExpression
  | n + 1, ts =>
    match operand ts with
    | .error e => .error e
    | .ok (x, []) => .ok (⟨x, []⟩, [])
    | .ok (x, t :: rest) =>
      match level.operator? t with
      | none => .ok (⟨x, []⟩, t :: rest)
      | some op =>
        match chainUpTo level operand n rest with
        | .error e => .error e
        | .ok (⟨y, tail⟩, rest) => .ok (⟨x, (op, y) :: tail⟩, rest)

/-- Reads operands separated by the operators of a level. -/
def chain (level : Level) (operand : Reader Expr) : Reader Chain :=
  fun ts => chainUpTo level operand (ts.length + 1) ts

/-- Applies a function to what a reader reads. -/
def Reader.map {α β : Type} (f : α → β) (reader : Reader α) : Reader β := fun ts =>
  match reader ts with
  | .ok (x, rest) => .ok (f x, rest)
  | .error e => .error e

/-! ### The levels -/

/-- Reads what stands in a bracket and the bracket that closes it. -/
def bracketed (inner : Reader Expr) : Reader Expr := fun ts =>
  match inner ts with
  | .error e => .error e
  | .ok (e, .closeBracket :: rest) => .ok (e, rest)
  | .ok _ => .error .missingBracket

/-- Reads a number, a variable, a function call or an expression in brackets. -/
def primary (inner : Reader Expr) : Reader Expr
  | .number x :: rest => .ok (.number x, rest)
  | .name text :: .openBracket :: rest =>
    if text ∈ functions then (bracketed inner).map (.call text) rest
    else .error (.unknownFunction text)
  | .name text :: rest => .ok (.variable text, rest)
  | .openBracket :: rest => bracketed inner rest
  | _ => .error .incompleteExpression

/-- Reads minus signs and what they apply to. -/
def unary (inner : Reader Expr) : Reader Expr
  | .operator .sub :: rest =>
    match unary inner rest with
    | .ok (e, rest) => .ok (.neg e, rest)
    | .error e => .error e
  | ts => primary inner ts

theorem unary_sub (inner : Reader Expr) (rest : List Token) :
    unary inner (.operator .sub :: rest) = (unary inner).map .neg rest := by
  rw [unary, Reader.map]
  rcases unary inner rest with e | ⟨e, rest⟩
  · rfl
  · rfl

theorem unary_of_head {inner : Reader Expr} {ts : List Token}
    (h : ts.head? ≠ some (.operator .sub)) : unary inner ts = primary inner ts := by
  rw [unary]
  rintro rest rfl
  exact h rfl

/-- Reads powers. -/
def power (inner : Reader Expr) : Reader Expr :=
  (chain powers (unary inner)).map Chain.toRight

/-- Reads products. -/
def term (inner : Reader Expr) : Reader Expr :=
  (chain products (power inner)).map Chain.toLeft

/-- Reads sums. -/
def additive (inner : Reader Expr) : Reader Expr :=
  (chain sums (term inner)).map Chain.toLeft

/-- Reads a sum, or a comparison of two sums. -/
def comparison (inner : Reader Expr) : Reader Expr := fun ts =>
  match additive inner ts with
  | .error e => .error e
  | .ok (l, []) => .ok (l, [])
  | .ok (l, t :: rest) =>
    match comparisons.operator? t with
    | none => .ok (l, t :: rest)
    | some op => (additive inner).map (.binary op l) rest

/-- Reads an expression whose brackets are nested less deeply than a bound. -/
def expression : Nat → Reader Expr
  | 0 => fun _ => .error .incompleteExpression
  | n + 1 => comparison (expression n)

/-- The target of an assignment at the start of some tokens, and what follows. -/
def splitTarget : List Token → Option String × List Token
  | .name text :: .operator .assign :: rest => (some text, rest)
  | ts => (none, ts)

/-- The expression that a list of tokens makes up, an assignment if they start with a
target.  Tokens left over are an error that quotes the text of the expression. -/
def Expr.ofTokens (display : String) (ts : List Token) : Except ArithmeticError Expr :=
  let (target, body) := splitTarget ts
  match expression (body.length + 1) body with
  | .error e => .error e
  | .ok (value, []) => .ok (target.elim value (.assign · value))
  | .ok (_, _ :: _) => .error (.unexpectedSymbol display)

end Worksheet.Arithmetic
