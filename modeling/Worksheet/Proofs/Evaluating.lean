/-
What the evaluation of an expression leaves behind.

Evaluation passes the variables on from operand to operand, and whatever an assignment changed
stays changed where it fails further on.  That nothing is ever left half done rests on what can
be read: an assignment stands nowhere but at the top, and there is no function and no operator
in an expression that has no value at all.

* `NoValue` — the reasons for which an expression may have no value;
* `Expr.IsFormula.eval_outcome` — expressions without assignments;
* `Expr.IsStatement.eval_outcome` — expressions that can be read;
* `ofTokens_target` — the variable that an expression assigns, in its tokens;
* `Engine.evaluation_atomic` — an engine that reads and calculates.
-/
import Worksheet.Proofs.Printing
import Worksheet.Arithmetic.Engine

namespace Worksheet.Arithmetic

/-- The reasons for which an expression may have no value where some variables are defined. -/
inductive NoValue (store : Store) : ArithmeticError → Prop
  | undefinedVariable (name : String) (h : store.get? name = none) :
      NoValue store (.undefinedVariable name)
  | divisionByZero : NoValue store .divisionByZero
  | negativeRoot : NoValue store .negativeRoot

/-- Of the operators of a formula, only division can be without a value. -/
theorem Operator.apply_error {op : Operator} {a b : Float} {err : ArithmeticError}
    (hop : op ≠ .assign) (h : op.apply a b = .error err) :
    op = .div ∧ (b == 0.0) = true ∧ err = .divisionByZero := by
  cases op with
  | assign => exact absurd rfl hop
  | div =>
    rw [apply] at h
    split at h
    · next hzero =>
      cases h
      exact ⟨rfl, hzero, rfl⟩
    · cases h
  | _ => cases h

/-- Of the functions, only the root can be without a value. -/
theorem applyFunction_error {name : String} {angle : AngleMode} {x : Float}
    {err : ArithmeticError} (hname : name ∈ functions)
    (h : applyFunction name angle x = .error err) :
    name = "sqrt" ∧ x < 0.0 ∧ err = .negativeRoot := by
  unfold applyFunction at h
  split at h
  · split at h
    · next hneg =>
      cases h
      exact ⟨rfl, hneg, rfl⟩
    · cases h
  · cases h
  · cases h
  · cases h
  · cases h
  · next hsqrt habs hsin hcos hround =>
    simp only [functions, List.mem_cons, List.not_mem_nil, or_false] at hname
    rcases hname with hname | hname | hname | hname | hname
    · exact (hsqrt hname).elim
    · exact (habs hname).elim
    · exact (hsin hname).elim
    · exact (hcos hname).elim
    · exact (hround hname).elim

namespace Expr

/-- A formula either has a value or has none for one of three reasons.  Its evaluation changes
no variable, so the operands see the variables that the whole does. -/
theorem IsFormula.eval_outcome {e : Expr} (h : e.IsFormula) (angle : AngleMode)
    (store : Store) :
    (∃ err, e.eval angle store = (.error err, store) ∧ NoValue store err) ∨
      ∃ x, e.eval angle store = (.ok x, store) := by
  induction e with
  | number x => exact .inr ⟨x, rfl⟩
  | «variable» name =>
    rcases hname : store.get? name with _ | x
    · exact .inl ⟨_, by rw [eval, hname], .undefinedVariable name hname⟩
    · exact .inr ⟨x, by rw [eval, hname]⟩
  | neg e ih =>
    rcases ih h with ⟨err, herr, hno⟩ | ⟨x, hx⟩
    · exact .inl ⟨err, by rw [eval, herr], hno⟩
    · exact .inr ⟨-x, by rw [eval, hx]⟩
  | binary op l r ihl ihr =>
    obtain ⟨hop, hl, hr⟩ := h
    rcases ihl hl with ⟨err, herr, hno⟩ | ⟨a, ha⟩
    · exact .inl ⟨err, by rw [eval, herr], hno⟩
    rcases ihr hr with ⟨err, herr, hno⟩ | ⟨b, hb⟩
    · exact .inl ⟨err, by rw [eval, ha]; dsimp only; rw [herr], hno⟩
    have heval : (binary op l r).eval angle store = (op.apply a b, store) := by
      rw [eval, ha]
      dsimp only
      rw [hb]
    rw [heval]
    rcases happly : op.apply a b with err | x
    · obtain ⟨-, -, rfl⟩ := Operator.apply_error hop happly
      exact .inl ⟨_, rfl, .divisionByZero⟩
    · exact .inr ⟨x, rfl⟩
  | call name e ih =>
    obtain ⟨hname, he⟩ := h
    rcases ih he with ⟨err, herr, hno⟩ | ⟨x, hx⟩
    · exact .inl ⟨err, by rw [eval, herr], hno⟩
    rw [eval, hx]
    dsimp only
    rcases happly : applyFunction name angle x with err | y
    · obtain ⟨-, -, rfl⟩ := applyFunction_error hname happly
      exact .inl ⟨_, rfl, .negativeRoot⟩
    · exact .inr ⟨y, rfl⟩
  | assign name e _ => exact h.elim

/-- The variable that an expression as a whole assigns. -/
def target : Expr → Option String
  | .assign name _ => some name
  | _ => none

theorem IsFormula.target {e : Expr} (h : e.IsFormula) : e.target = none := by
  cases e with
  | assign name e => exact h.elim
  | _ => rfl

/-- What can be read either has no value, for one of three reasons, and changes no variable, or
has one, which is then also the value of the variable that it assigns. -/
theorem IsStatement.eval_outcome {e : Expr} (h : e.IsStatement) (angle : AngleMode)
    (store : Store) :
    (∃ err, e.eval angle store = (.error err, store) ∧ NoValue store err) ∨
    ∃ x after, e.eval angle store = (.ok x, after) ∧
      ∀ name, after.get? name = if e.target = some name then some x else store.get? name := by
  rcases h.formula_or_assign with he | ⟨target, value, rfl, he⟩
  · rcases he.eval_outcome angle store with hfail | ⟨x, hx⟩
    · exact .inl hfail
    · refine .inr ⟨x, store, hx, fun name => ?_⟩
      rw [he.target, if_neg (by simp)]
  · rcases he.eval_outcome angle store with ⟨err, herr, hno⟩ | ⟨x, hx⟩
    · exact .inl ⟨err, by rw [eval, herr], hno⟩
    · refine .inr ⟨x, store.set target x, by rw [eval, hx], fun name => ?_⟩
      rw [Store.get?_set]
      simp only [Expr.target, Option.some.injEq, eq_comm]

end Expr

/-- What can be read assigns the variable in front of its first `=`, if it starts with one. -/
theorem ofTokens_target {display : String} {ts : List Token} {e : Expr}
    (h : Expr.ofTokens display ts = .ok e) : e.target = (splitTarget ts).1 := by
  cases (ofTokens_eq_ok_iff display ts e).mp h with
  | value h => rw [h.isFormula.target, splitTarget_of_assign_not_mem h.assign_not_mem]
  | assign name h => rfl

namespace Engine

/-- Reading an expression keeps the variables and the last value, and forgets that it belongs
to an expression. -/
theorem parse_kept (text : String) (inputs : InputQueue) (e : Engine) :
    let read := (e.parse text inputs).2.1
    read.store = e.store ∧ read.value = e.value ∧ read.calculations = e.calculations ∧
      read.calculated = false := by
  intro read
  unfold read parse
  dsimp only
  split
  · exact ⟨rfl, rfl, rfl, rfl⟩
  · exact ⟨rfl, rfl, rfl, rfl⟩

theorem parse_error {text : String} {inputs : InputQueue} {e : Engine} {err : ArithmeticError}
    (h : (e.parse text inputs).1 = .error err) : (e.parse text inputs).2.1.parsed = none := by
  unfold parse at h ⊢
  dsimp only at h ⊢
  split
  · rfl
  · next hread =>
    rw [hread] at h
    cases h

/-- An expression that was read is there to be calculated. -/
theorem parse_ok {text : String} {inputs : InputQueue} {e : Engine}
    (h : (e.parse text inputs).1 = .ok ()) :
    ∃ reading expr, (tokens inputs text.toList).1 = .ok reading ∧
      Expr.ofTokens (String.ofList reading.display) reading.tokens = .ok expr ∧
      (e.parse text inputs).2.1.parsed = some expr := by
  unfold parse read at h ⊢
  rcases htokens : tokens inputs text.toList with ⟨err | reading, after⟩
  · rw [htokens] at h
    cases h
  rw [htokens] at h
  dsimp only at h ⊢
  rcases hof : Expr.ofTokens (String.ofList reading.display) reading.tokens with err | expr
  · rw [hof] at h
    cases h
  · exact ⟨reading, expr, rfl, hof, rfl⟩

/-- A calculation of what can be read fails for one of three reasons and leaves the engine as it
is, or it succeeds. -/
theorem calculate_parsed {e : Engine} {expr : Expr} (hparsed : e.parsed = some expr)
    (h : expr.IsStatement) :
    (∃ err, e.calculate = (.error err, e) ∧ NoValue e.store err) ∨
    ∃ value store, e.calculate = (.ok (), { e with
        store, value, calculated := true, calculations := e.calculations + 1 }) ∧
      ∀ name, store.get? name =
        if expr.target = some name then some value else e.store.get? name := by
  obtain ⟨store, parsed, _, _, _, angle, _, _, _⟩ := e
  obtain rfl : parsed = some expr := hparsed
  rw [calculate]
  dsimp only
  rcases h.eval_outcome angle store with ⟨err, herr, hno⟩ | ⟨x, after, hx, hget⟩
  · rw [herr]
    exact .inl ⟨err, rfl, hno⟩
  · rw [hx]
    exact .inr ⟨x, after, rfl, hget⟩

/-- **A failed evaluation changes nothing**, for every text and every state of the engine.  A
calculation that fails leaves the engine as it was after reading, and it fails for one of three
reasons.  One that succeeds changes at most the variable in front of the first `=`, to the value
of the whole, and is counted.  Where the text cannot be read there is nothing to calculate, and
everything but the expression is as before. -/
theorem evaluation_atomic (text : String) (inputs : InputQueue) (e : Engine) :
    let parsing := e.parse text inputs
    let read := parsing.2.1
    let evaluation := read.calculate
    let after := evaluation.2
    (read.store = e.store ∧ read.value = e.value ∧ read.calculations = e.calculations ∧
      read.calculated = false) ∧
    (∀ err, parsing.1 = .error err → evaluation = (.error .nothingToCalculate, read)) ∧
    (parsing.1 = .ok () → ∀ err, evaluation.1 = .error err →
      NoValue e.store err ∧ after = read) ∧
    (parsing.1 = .ok () → evaluation.1 = .ok () →
      after.calculations = e.calculations + 1 ∧ after.calculated = true ∧
      ∃ reading, (tokens inputs text.toList).1 = .ok reading ∧
        ∀ name, after.store.get? name =
          if (splitTarget reading.tokens).1 = some name then some (MathEngine.result after).re
          else e.store.get? name) := by
  intro parsing read evaluation after
  obtain ⟨hstore, hvalue, hcalculations, hcalculated⟩ := parse_kept text inputs e
  -- what the calculation starts from, where there is something to calculate
  have hexpr : parsing.1 = .ok () → ∃ reading expr,
      (tokens inputs text.toList).1 = .ok reading ∧ expr.target = (splitTarget reading.tokens).1 ∧
      read.parsed = some expr ∧ expr.IsStatement := by
    intro hok
    obtain ⟨reading, expr, hreading, hof, hparsed⟩ := parse_ok hok
    exact ⟨reading, expr, hreading, ofTokens_target hof, hparsed,
      ((ofTokens_eq_ok_iff _ _ _).mp hof).isStatement⟩
  refine ⟨⟨hstore, hvalue, hcalculations, hcalculated⟩, ?_, ?_, ?_⟩
  · intro err herr
    show read.calculate = _
    rw [calculate, parse_error herr]
  · intro hok err herr
    obtain ⟨reading, expr, -, -, hparsed, hstatement⟩ := hexpr hok
    rcases calculate_parsed hparsed hstatement with ⟨err', hfail, hno⟩ | ⟨x, store, hsuccess, -⟩
    · rw [show evaluation = (.error err', read) from hfail] at herr
      cases herr
      exact ⟨hstore ▸ hno, congrArg Prod.snd hfail⟩
    · rw [show evaluation = _ from hsuccess] at herr
      cases herr
  · intro hok hdone
    obtain ⟨reading, expr, hreading, htarget, hparsed, hstatement⟩ := hexpr hok
    rcases calculate_parsed hparsed hstatement with ⟨err', hfail, -⟩ | ⟨x, store, hsuccess, hget⟩
    · rw [show evaluation = (.error err', read) from hfail] at hdone
      cases hdone
    · rw [show after = _ from congrArg Prod.snd hsuccess]
      refine ⟨congrArg (· + 1) hcalculations, rfl, reading, hreading, fun name => ?_⟩
      rw [← htarget, ← hstore]
      exact hget name

end Engine

end Worksheet.Arithmetic
