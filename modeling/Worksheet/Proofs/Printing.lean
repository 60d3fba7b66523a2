/-
Printing expressions.

An expression is printed with brackets only around an operand of a rank that is looser than the
one its place asks for.  What is printed is in the grammar, and none of it can be left out:
whatever is read as the expression has the same tokens, at most with further brackets between
them.

* `Expr.IsStatement` — the expressions that can be written;
* `Expr.print` — the tokens of an expression;
* `Derives.isFormula` — nothing else is derived;
* `derives_print` — what is printed is derived;
* `Derives.print_sublist` — no brackets can be left out;
* `reads_exactly_the_grammar` — reading, the grammar and printing.
-/
import Worksheet.Proofs.Grammar

namespace Worksheet.Arithmetic

open scoped List

variable {next : Option Token} {ts us : List Token} {e l r : Expr} {op : Operator}

/-! ### The expressions that can be written -/

/-- An expression without assignments, which calls functions that there are. -/
def Expr.IsFormula : Expr → Prop
  | .number _ => True
  | .variable _ => True
  | .neg e => e.IsFormula
  | .binary op l r => op ≠ .assign ∧ l.IsFormula ∧ r.IsFormula
  | .call name e => name ∈ functions ∧ e.IsFormula
  | .assign _ _ => False

/-- An expression whose only assignment, if it has one, is the whole. -/
def Expr.IsStatement : Expr → Prop
  | .assign _ e => e.IsFormula
  | e => e.IsFormula

theorem Expr.IsFormula.isStatement (h : e.IsFormula) : e.IsStatement := by
  cases e with
  | assign => exact h.elim
  | _ => exact h

/-- A statement is a formula, or assigns the value of one. -/
theorem Expr.IsStatement.formula_or_assign (h : e.IsStatement) :
    e.IsFormula ∨ ∃ name value, e = .assign name value ∧ value.IsFormula := by
  cases e with
  | assign name value => exact .inr ⟨name, value, rfl, h⟩
  | _ => exact .inl h

/-- The trees of the grammar have no assignments inside. -/
theorem Derives.isFormula {rank : Rank} (h : Derives rank next ts e) : e.IsFormula := by
  induction h with
  | ofSum _ ih => exact ih
  | compare hop _ _ ihl ihr => exact ⟨Rank.comparison.ne_assign hop, ihl, ihr⟩
  | ofProduct _ ih => exact ih
  | add hop _ _ ihl ihr => exact ⟨Rank.sum.ne_assign hop, ihl, ihr⟩
  | ofPower _ ih => exact ih
  | multiply hop _ _ ihl ihr => exact ⟨Rank.product.ne_assign hop, ihl, ihr⟩
  | ofNegation _ ih => exact ih
  | raise hop _ _ ihl ihr => exact ⟨Rank.power.ne_assign hop, ihl, ihr⟩
  | ofOperand _ ih => exact ih
  | negate _ ih => exact ih
  | number x => trivial
  | name name _ => trivial
  | call hname _ ih => exact ⟨hname, ih⟩
  | bracket _ ih => exact ih

theorem Sentence.isStatement (h : Sentence ts e) : e.IsStatement := by
  cases h with
  | value h => exact h.isFormula.isStatement
  | assign name h => exact h.isFormula

/-! ### Ranks from loose to tight -/

/-- How many ranks are looser. -/
def Rank.tightness : Rank → Nat
  | .comparison => 0
  | .sum => 1
  | .product => 2
  | .power => 3
  | .negation => 4
  | .operand => 5

theorem Rank.tightness_inj {a b : Rank} (h : a.tightness = b.tightness) : a = b := by
  cases a <;> cases b <;> first | rfl | cases h

/-- The next looser rank. -/
def Rank.looser : Rank → Rank
  | .comparison => .comparison
  | .sum => .comparison
  | .product => .sum
  | .power => .product
  | .negation => .power
  | .operand => .negation

theorem Rank.tightness_looser (rank : Rank) : rank.looser.tightness = rank.tightness - 1 := by
  cases rank <;> rfl

theorem Derives.looser {rank : Rank} (h : Derives rank next ts e) :
    Derives rank.looser next ts e := by
  cases rank with
  | comparison => exact h
  | sum => exact .ofSum h
  | product => exact .ofProduct h
  | power => exact .ofPower h
  | negation => exact .ofNegation h
  | operand => exact .ofOperand h

/-- What a rank derives, every looser one does. -/
theorem Derives.loosen {rank tight : Rank} (h : Derives tight next ts e)
    (hle : rank.tightness ≤ tight.tightness) : Derives rank next ts e := by
  obtain ⟨n, hn⟩ := Nat.exists_eq_add_of_le hle
  clear hle
  induction n generalizing tight with
  | zero => exact Rank.tightness_inj hn ▸ h
  | succ n ih => exact ih h.looser (by rw [Rank.tightness_looser]; omega)

/-- The rank of an expression with an operator. -/
def Operator.rank : Operator → Rank
  | .lt | .gt | .le | .ge | .eq | .ne => .comparison
  | .add | .sub => .sum
  | .mul | .div => .product
  | .pow => .power
  | .assign => .comparison

theorem Operator.mem_level_rank (h : op ≠ .assign) : op ∈ op.rank.level := by
  cases op with
  | assign => exact absurd rfl h
  | _ => decide

theorem Operator.rank_of_mem {rank : Rank} (h : op ∈ rank.level) : op.rank = rank := by
  revert h
  cases rank <;> cases op <;> decide

/-- The rank of what stands in front of an operator of a rank. -/
def Rank.left : Rank → Rank
  | .comparison => .sum
  | .power => .negation
  | rank => rank

/-- The rank of what stands behind an operator of a rank. -/
def Rank.right : Rank → Rank
  | .comparison => .sum
  | .sum => .product
  | .product => .power
  | rank => rank

/-- Two operands with an operator of a rank between them. -/
theorem Derives.binary {rank : Rank} (hop : op ∈ rank.level)
    (hl : Derives rank.left (some (.operator op)) ts l) (hr : Derives rank.right next us r) :
    Derives rank next (ts ++ .operator op :: us) (.binary op l r) := by
  cases rank with
  | comparison => exact .compare hop hl hr
  | sum => exact .add hop hl hr
  | product => exact .multiply hop hl hr
  | power => exact .raise hop hl hr
  | negation => cases hop
  | operand => cases hop

/-! ### Brackets -/

/-- Tokens of one rank where another is asked for: in brackets if they are looser. -/
def enclose (found asked : Rank) (ts : List Token) : List Token :=
  if asked.tightness ≤ found.tightness then ts else .openBracket :: (ts ++ [.closeBracket])

theorem enclose_self (rank : Rank) (ts : List Token) : enclose rank rank ts = ts :=
  if_pos (Nat.le_refl _)

theorem enclose_comparison (found : Rank) (ts : List Token) :
    enclose found .comparison ts = ts :=
  if_pos (Nat.zero_le _)

/-- Enclosed tokens are derived by the rank that is asked for. -/
theorem derives_enclose {found asked : Rank}
    (h : ∀ {next}, next ≠ some Token.openBracket → Derives found next ts e)
    (hnext : next ≠ some .openBracket) : Derives asked next (enclose found asked ts) e := by
  unfold enclose
  split
  · next hle => exact (h hnext).loosen hle
  · have hinner : Derives .comparison (some .closeBracket) ts e :=
      (h (by simp)).loosen (Nat.zero_le _)
    have hasked : asked.tightness ≤ Rank.operand.tightness := by cases asked <;> decide
    exact (Derives.bracket hinner).loosen hasked

theorem sublist_brackets (ts : List Token) : ts <+ .openBracket :: (ts ++ [.closeBracket]) :=
  .cons _ (List.sublist_append_left ..)

theorem enclose_sublist_brackets (found asked : Rank) (ts : List Token) :
    enclose found asked ts <+ .openBracket :: (ts ++ [.closeBracket]) := by
  unfold enclose
  split
  · exact sublist_brackets ts
  · exact .refl _

/-- A tighter rank asks for no fewer brackets. -/
theorem enclose_sublist_enclose {found asked tight : Rank}
    (h : asked.tightness ≤ tight.tightness) (ts : List Token) :
    enclose found asked ts <+ enclose found tight ts := by
  by_cases hfound : asked.tightness ≤ found.tightness
  · rw [enclose, if_pos hfound, enclose]
    split
    · exact .refl _
    · exact sublist_brackets ts
  · have hsame : enclose found asked ts = enclose found tight ts := by
      rw [enclose, enclose, if_neg hfound, if_neg (by omega)]
    exact hsame ▸ .refl _

/-! ### Expressions as tokens -/

namespace Expr

/-- The rank of an expression. -/
def rank : Expr → Rank
  | .number _ => .operand
  | .variable _ => .operand
  | .neg _ => .negation
  | .binary op _ _ => op.rank
  | .call _ _ => .operand
  | .assign _ _ => .comparison

/-- The tokens of an expression. -/
def print : Expr → List Token
  | .number x => [.number x]
  | .variable name => [.name name]
  | .neg e => .operator .sub :: enclose e.rank .negation e.print
  | .binary op l r =>
    enclose l.rank op.rank.left l.print ++ .operator op :: enclose r.rank op.rank.right r.print
  | .call name e => .name name :: .openBracket :: (e.print ++ [.closeBracket])
  | .assign name e => .name name :: .operator .assign :: e.print

/-- The tokens of an expression where a rank is asked for. -/
def printAt (e : Expr) (asked : Rank) : List Token :=
  enclose e.rank asked e.print

end Expr

/-- What is printed of an expression is derived, and as that expression. -/
theorem derives_print (h : e.IsFormula) (hnext : next ≠ some .openBracket) :
    Derives e.rank next e.print e := by
  induction e generalizing next with
  | number x => exact .number x
  | «variable» name => exact .name name hnext
  | neg e ih => exact .negate (derives_enclose (ih h) hnext)
  | binary op l r ihl ihr =>
    obtain ⟨hop, hl, hr⟩ := h
    exact .binary (Operator.mem_level_rank hop) (derives_enclose (ihl hl) (by simp))
      (derives_enclose (ihr hr) hnext)
  | call name e ih =>
    obtain ⟨hname, he⟩ := h
    exact .call hname ((ih he (by simp)).loosen (Nat.zero_le _))
  | assign name e _ => exact h.elim

theorem sentence_print (h : e.IsStatement) : Sentence e.print e := by
  have hvalue : ∀ {e : Expr}, e.IsFormula → Derives .comparison none e.print e := fun he =>
    (derives_print he (by simp)).loosen (Nat.zero_le _)
  rcases h.formula_or_assign with he | ⟨name, value, rfl, he⟩
  · exact .value (hvalue he)
  · exact .assign name (hvalue he)

/-! ### No brackets to spare -/

theorem printAt_comparison (e : Expr) : e.printAt .comparison = e.print :=
  enclose_comparison _ _

/-- Printed operands with an operator between them. -/
theorem print_binary_sublist (rank : Rank) (hop : op ∈ rank.level)
    (hl : l.printAt rank.left <+ ts) (hr : r.printAt rank.right <+ us) :
    (Expr.binary op l r).printAt rank <+ ts ++ .operator op :: us := by
  obtain rfl := Operator.rank_of_mem hop
  rw [Expr.printAt, Expr.rank, enclose_self, Expr.print]
  exact hl.append (hr.cons_cons _)

/-- Whatever is derived as an expression has the tokens that are printed of it. -/
theorem Derives.print_sublist {rank : Rank} (h : Derives rank next ts e) :
    e.printAt rank <+ ts := by
  induction h with
  | ofSum _ ih => exact (enclose_sublist_enclose (by decide) _).trans ih
  | compare hop _ _ ihl ihr => exact print_binary_sublist .comparison hop ihl ihr
  | ofProduct _ ih => exact (enclose_sublist_enclose (by decide) _).trans ih
  | add hop _ _ ihl ihr => exact print_binary_sublist .sum hop ihl ihr
  | ofPower _ ih => exact (enclose_sublist_enclose (by decide) _).trans ih
  | multiply hop _ _ ihl ihr => exact print_binary_sublist .product hop ihl ihr
  | ofNegation _ ih => exact (enclose_sublist_enclose (by decide) _).trans ih
  | raise hop _ _ ihl ihr => exact print_binary_sublist .power hop ihl ihr
  | ofOperand _ ih => exact (enclose_sublist_enclose (by decide) _).trans ih
  | negate _ ih => exact ih.cons_cons _
  | number x => exact .refl _
  | name name _ => exact .refl _
  | call _ _ ih =>
    rw [printAt_comparison] at ih
    exact ((ih.append (.refl _)).cons_cons _).cons_cons _
  | bracket _ ih =>
    rw [printAt_comparison] at ih
    exact (enclose_sublist_brackets ..).trans ((ih.append (.refl _)).cons_cons _)

theorem Sentence.print_sublist (h : Sentence ts e) : e.print <+ ts := by
  cases h with
  | value h =>
    rw [← printAt_comparison]
    exact h.print_sublist
  | assign name h =>
    rw [Expr.print, ← printAt_comparison]
    exact (h.print_sublist.cons_cons _).cons_cons _

/-! ### Reading -/

/-- **Reading accepts exactly the grammar.**  A list of tokens is read if and only if it is a
sentence of the grammar, and then as the tree that the grammar gives it.  The sentences stand for
the expressions without assignments inside; each of these is read back from what is printed of
it, and is read only from what has all of these tokens, in their order. -/
theorem reads_exactly_the_grammar (display : String) :
    (∀ ts e, Expr.ofTokens display ts = .ok e ↔ Sentence ts e) ∧
    (∀ e : Expr, e.IsStatement → Expr.ofTokens display e.print = .ok e) ∧
    ∀ ts e, Sentence ts e → e.IsStatement ∧ e.print <+ ts :=
  ⟨ofTokens_eq_ok_iff display,
    fun e h => (ofTokens_eq_ok_iff display _ e).mpr (sentence_print h),
    fun _ _ h => ⟨h.isStatement, h.print_sublist⟩⟩

/-- In `x = 1 - (2 - -y ^ 3 ^ 2) < abs(z)`, the brackets are there for the difference on the
right of a difference; the powers, the minus sign and the comparison need none. -/
theorem reads_exactly_the_grammar_mixed :
    let difference : Expr := .binary .sub (.number 2.0)
      (.binary .pow (.neg (.variable "y")) (.binary .pow (.number 3.0) (.number 2.0)))
    let e : Expr := .assign "x"
      (.binary .lt (.binary .sub (.number 1.0) difference) (.call "abs" (.variable "z")))
    let ts : List Token := [.name "x", .operator .assign, .number 1.0, .operator .sub,
      .openBracket, .number 2.0, .operator .sub, .operator .sub, .name "y", .operator .pow,
      .number 3.0, .operator .pow, .number 2.0, .closeBracket, .operator .lt, .name "abs",
      .openBracket, .name "z", .closeBracket]
    e.print = ts ∧ Expr.ofTokens "" ts = .ok e ∧ Sentence ts e := by
  intro difference e ts
  have hstatement : e.IsStatement := by
    simp [e, difference, Expr.IsStatement, Expr.IsFormula, functions]
  have hread : Expr.ofTokens "" ts = .ok e := (reads_exactly_the_grammar "").2.1 e hstatement
  exact ⟨rfl, hread, ((reads_exactly_the_grammar "").1 ts e).mp hread⟩

end Worksheet.Arithmetic
