/-
Arithmetic expressions and their values.

An expression is evaluated from left to right.  Assigning a value to a variable is an
expression like any other, so evaluation changes the variables as it goes, and what was
assigned stays assigned even where evaluation fails further on.

* `Store` — the variables that are defined;
* `Operator.apply`, `applyFunction` — the values of operators and functions, as far as
  they have any;
* `Expr.eval` — the value of an expression, and the variables after it.
-/
import Worksheet.Angle
import Worksheet.Arithmetic.Token

namespace Worksheet.Arithmetic

/-- An expression. -/
inductive Expr where
  | number (value : Float)
  | variable (name : String)
  | neg (operand : Expr)
  | binary (op : Operator) (left right : Expr)
  | call (function : String) (argument : Expr)
  | assign (target : String) (value : Expr)

/-- The functions that an expression can call, by name. -/
def functions : List String :=
  ["sqrt", "abs", "sin", "cos", "round"]

/-! ### Variables -/

/-- The variables that are defined, with their values. -/
structure Store where
  entries : List (String × Float)

namespace Store

/-- No variable is defined. -/
def empty : Store :=
  ⟨[]⟩

/-- The value of a variable. -/
def get? (name : String) (s : Store) : Option Float :=
  s.entries.lookup name

/-- Gives a variable a value. -/
def set (name : String) (value : Float) (s : Store) : Store :=
  ⟨(name, value) :: s.entries.filter fun entry => entry.1 != name⟩

theorem get?_set (name other : String) (value : Float) (s : Store) :
    (s.set name value).get? other = if other = name then some value else s.get? other := by
  by_cases h : other = name
  · simp [set, get?, h]
  · have hb : (other == name) = false := by simpa using h
    simp only [set, get?, List.lookup_cons, hb, h, if_false]
    induction s.entries with
    | nil => rfl
    | cons entry rest ih =>
      obtain ⟨key, x⟩ := entry
      by_cases hk : key = name
      · subst hk
        simpa [List.lookup_cons, hb] using ih
      · have hkeep : (key != name) = true := by simpa using hk
        simp only [List.filter_cons, hkeep, if_true, List.lookup_cons, ih]

end Store

/-! ### Values -/

/-- A truth value as a number. -/
def truth (b : Bool) : Float :=
  if b then 1.0 else 0.0

/-- The value of an operator. -/
def Operator.apply (op : Operator) (a b : Float) : Except ArithmeticError Float :=
  match op with
  | .add => .ok (a + b)
  | .sub => .ok (a - b)
  | .mul => .ok (a * b)
  | .div => if b == 0.0 then .error .divisionByZero else .ok (a / b)
  | .pow => .ok (a ^ b)
  | .lt => .ok (truth (a < b))
  | .gt => .ok (truth (b < a))
  | .le => .ok (truth (a ≤ b))
  | .ge => .ok (truth (b ≤ a))
  | .eq => .ok (truth (a == b))
  | .ne => .ok (truth (a != b))
  | .assign => .error (.invalidOperator (String.ofList op.symbol))

/-- The value of a function, with angles in the given unit. -/
def applyFunction (name : String) (angle : AngleMode) (x : Float) :
    Except ArithmeticError Float :=
  match name with
  | "sqrt" => if x < 0.0 then .error .negativeRoot else .ok x.sqrt
  | "abs" => .ok x.abs
  | "sin" => .ok (angle.toRadians x).sin
  | "cos" => .ok (angle.toRadians x).cos
  | "round" => .ok (Number.roundHalfAway x)
  | _ => .error (.unknownFunction name)

/-- The value of an expression, and the variables after it; of two faults, the one
further to the left is reported. -/
def Expr.eval (angle : AngleMode) : Expr → Store → Except ArithmeticError Float × Store
  | .number x, store => (.ok x, store)
  | .variable name, store =>
    match store.get? name with
    | some x => (.ok x, store)
    | none => (.error (.undefinedVariable name), store)
  | .neg e, store =>
    match e.eval angle store with
    | (.ok x, store) => (.ok (-x), store)
    | (.error err, store) => (.error err, store)
  | .binary op l r, store =>
    match l.eval angle store with
    | (.error err, store) => (.error err, store)
    | (.ok a, store) =>
      match r.eval angle store with
      | (.error err, store) => (.error err, store)
      | (.ok b, store) => (op.apply a b, store)
  | .call name e, store =>
    match e.eval angle store with
    | (.ok x, store) => (applyFunction name angle x, store)
    | (.error err, store) => (.error err, store)
  | .assign name e, store =>
    match e.eval angle store with
    | (.ok x, store) => (.ok x, store.set name x)
    | (.error err, store) => (.error err, store)

end Worksheet.Arithmetic
