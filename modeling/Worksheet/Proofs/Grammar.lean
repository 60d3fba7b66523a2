/-
The grammar of arithmetic expressions.

The grammar says which lists of tokens are expressions, and of which tree, without a word on how
they are read.  A rank derives the tokens of an expression together with the token behind them:
a name is a variable only where no bracket follows.

* `Derives` — the expressions of each rank, rule by rule;
* `Operands` — the same for sums, products and powers as operands in a row;
* `sound_expression` — what is read is derived;
* `complete_expression` — what is derived is read;
* `ofTokens_eq_ok_iff` — the tokens that are read as a whole.
-/
import Worksheet.Arithmetic.Parser

namespace Worksheet.Arithmetic

/-- The ranks of the grammar, from loose to tight. -/
inductive Rank where
  | comparison
  | sum
  | product
  | power
  | negation
  | operand
  deriving DecidableEq, Repr

/-- The expressions of a rank: some tokens, with the token that follows them if there is one,
and the tree that they stand for. -/
inductive Derives : Rank → Option Token → List Token → Expr → Prop
  /-- A comparison is a sum, or two sums with an operator between them. -/
  | ofSum {next ts e} (h : Derives .sum next ts e) : Derives .comparison next ts e
  | compare {next ts us l r op} (hop : op ∈ comparisons)
      (hl : Derives .sum (some (.operator op)) ts l) (hr : Derives .sum next us r) :
      Derives .comparison next (ts ++ .operator op :: us) (.binary op l r)
  /-- A sum is a product, or a sum and a further product. -/
  | ofProduct {next ts e} (h : Derives .product next ts e) : Derives .sum next ts e
  | add {next ts us l r op} (hop : op ∈ sums)
      (hl : Derives .sum (some (.operator op)) ts l) (hr : Derives .product next us r) :
      Derives .sum next (ts ++ .operator op :: us) (.binary op l r)
  /-- A product is a power, or a product and a further power. -/
  | ofPower {next ts e} (h : Derives .power next ts e) : Derives .product next ts e
  | multiply {next ts us l r op} (hop : op ∈ products)
      (hl : Derives .product (some (.operator op)) ts l) (hr : Derives .power next us r) :
      Derives .product next (ts ++ .operator op :: us) (.binary op l r)
  /-- A power is a negation, or a negation raised to a power. -/
  | ofNegation {next ts e} (h : Derives .negation next ts e) : Derives .power next ts e
  | raise {next ts us l r op} (hop : op ∈ powers)
      (hl : Derives .negation (some (.operator op)) ts l) (hr : Derives .power next us r) :
      Derives .power next (ts ++ .operator op :: us) (.binary op l r)
  /-- A negation is an operand behind any number of minus signs. -/
  | ofOperand {next ts e} (h : Derives .operand next ts e) : Derives .negation next ts e
  | negate {next ts e} (h : Derives .negation next ts e) :
      Derives .negation next (.operator .sub :: ts) (.neg e)
  | number {next} (x : Float) : Derives .operand next [.number x] (.number x)
  | name {next} (name : String) (h : next ≠ some .openBracket) :
      Derives .operand next [.name name] (.variable name)
  | call {next ts e name} (hname : name ∈ functions)
      (h : Derives .comparison (some .closeBracket) ts e) :
      Derives .operand next (.name name :: .openBracket :: (ts ++ [.closeBracket])) (.call name e)
  | bracket {next ts e} (h : Derives .comparison (some .closeBracket) ts e) :
      Derives .operand next (.openBracket :: (ts ++ [.closeBracket])) e

/-- The tokens make up a comparison, or a name and `=` in front of one, which assign its value. -/
inductive Sentence : List Token → Expr → Prop
  | value {ts e} (h : Derives .comparison none ts e) : Sentence ts e
  | assign {ts e} (name : String) (h : Derives .comparison none ts e) :
      Sentence (.name name :: .operator .assign :: ts) (.assign name e)

variable {next : Option Token} {ts us rest : List Token} {e : Expr} {op : Operator}

/-- The operators that stand between the operands of a rank. -/
def Rank.level : Rank → Level
  | .comparison => comparisons
  | .sum => sums
  | .product => products
  | .power => powers
  | .negation => []
  | .operand => []

theorem Rank.ne_assign {rank : Rank} (h : op ∈ rank.level) : op ≠ .assign := by
  rintro rfl
  revert h
  cases rank <;> decide

/-- No rank has an assignment. -/
theorem Derives.assign_not_mem {rank : Rank} (h : Derives rank next ts e) :
    Token.operator .assign ∉ ts := by
  have hbetween : ∀ (rank : Rank) {ts us : List Token} {op : Operator}, op ∈ rank.level →
      Token.operator .assign ∉ ts → Token.operator .assign ∉ us →
      Token.operator .assign ∉ ts ++ .operator op :: us := by
    intro rank ts us op hop hts hus
    rw [List.mem_append, List.mem_cons, not_or, not_or]
    exact ⟨hts, fun heq => Rank.ne_assign hop (Token.operator.inj heq).symm, hus⟩
  induction h with
  | ofSum _ ih => exact ih
  | compare hop _ _ ihl ihr => exact hbetween .comparison hop ihl ihr
  | ofProduct _ ih => exact ih
  | add hop _ _ ihl ihr => exact hbetween .sum hop ihl ihr
  | ofPower _ ih => exact ih
  | multiply hop _ _ ihl ihr => exact hbetween .product hop ihl ihr
  | ofNegation _ ih => exact ih
  | raise hop _ _ ihl ihr => exact hbetween .power hop ihl ihr
  | ofOperand _ ih => exact ih
  | negate _ ih => simpa using ih
  | number x => simp
  | name name _ => simp
  | call _ _ ih => simpa using ih
  | bracket _ ih => simpa using ih

/-! ### Operands in a row -/

/-- Operands of a rank with operators of a level between them. -/
inductive Operands (level : Level) (rank : Rank) : Option Token → List Token → Chain → Prop
  | one {next ts x} (h : Derives rank next ts x) : Operands level rank next ts ⟨x, []⟩
  | more {next ts us x y op tail} (h : Derives rank (some (.operator op)) ts x) (hop : op ∈ level)
      (hrest : Operands level rank next us ⟨y, tail⟩) :
      Operands level rank next (ts ++ .operator op :: us) ⟨x, (op, y) :: tail⟩

/-- A further operand at the end. -/
theorem Operands.snoc {level : Level} {rank : Rank} {c : Chain} {x : Expr}
    (h : Operands level rank (some (.operator op)) ts c) (hop : op ∈ level)
    (hx : Derives rank next us x) :
    Operands level rank next (ts ++ .operator op :: us) ⟨c.head, c.tail ++ [(op, x)]⟩ := by
  induction h with
  | one h => exact .more h hop (.one hx)
  | more h hop' _ ih =>
    rw [List.append_assoc, List.cons_append]
    exact .more h hop' ih

theorem toLeft_snoc (c : Chain) (op : Operator) (x : Expr) :
    Chain.toLeft ⟨c.head, c.tail ++ [(op, x)]⟩ = .binary op c.toLeft x := by
  simp [Chain.toLeft]

/-- Operands grouped to the left belong to a rank that goes on to the left. -/
theorem Operands.toLeft {level : Level} {rank tighter : Rank} {c : Chain}
    (hone : ∀ {next ts e}, Derives tighter next ts e → Derives rank next ts e)
    (hmore : ∀ {next ts us l r op}, op ∈ level → Derives rank (some (.operator op)) ts l →
      Derives tighter next us r → Derives rank next (ts ++ .operator op :: us) (.binary op l r))
    (h : Operands level tighter next ts c) : Derives rank next ts c.toLeft := by
  -- what is left of the operands goes on with any expression of the rank
  have hgo : ∀ {next us c}, Operands level tighter next us c → ∀ {op ls l}, op ∈ level →
      Derives rank (some (.operator op)) ls l →
      Derives rank next (ls ++ .operator op :: us)
        (Chain.toLeft ⟨.binary op l c.head, c.tail⟩) := by
    intro next us c h
    induction h with
    | one h =>
      intro op ls l hop hl
      exact hmore hop hl h
    | more h hop' hrest ih =>
      intro op ls l hop hl
      have hcombined := ih hop' (hmore hop hl h)
      rwa [List.append_assoc, List.cons_append] at hcombined
  cases h with
  | one h => exact hone h
  | more h hop hrest => exact hgo hrest hop (hone h)

/-- Powers in a row, grouped to the right. -/
theorem Operands.toRight {c : Chain} (h : Operands powers .negation next ts c) :
    Derives .power next ts c.toRight := by
  induction h with
  | one h => exact .ofNegation h
  | more h hop hrest ih => exact .raise hop h ih

/-- Sums and products go on to the left, powers to the right. -/
theorem Derives.operands {rank : Rank} : Derives rank next ts e →
    match rank with
    | .sum => ∃ c, Operands sums .product next ts c ∧ c.toLeft = e
    | .product => ∃ c, Operands products .power next ts c ∧ c.toLeft = e
    | .power => ∃ c, Operands powers .negation next ts c ∧ c.toRight = e
    | _ => True := by
  intro h
  induction h with
  | ofProduct h _ => exact ⟨⟨_, []⟩, .one h, rfl⟩
  | add hop _ hr ihl _ =>
    obtain ⟨c, hc, rfl⟩ := ihl
    exact ⟨_, hc.snoc hop hr, toLeft_snoc ..⟩
  | ofPower h _ => exact ⟨⟨_, []⟩, .one h, rfl⟩
  | multiply hop _ hr ihl _ =>
    obtain ⟨c, hc, rfl⟩ := ihl
    exact ⟨_, hc.snoc hop hr, toLeft_snoc ..⟩
  | ofNegation h _ => exact ⟨⟨_, []⟩, .one h, rfl⟩
  | raise hop hl _ _ ihr =>
    obtain ⟨⟨y, tail⟩, hc, rfl⟩ := ihr
    exact ⟨_, .more hl hop hc, rfl⟩
  | _ => trivial

/-! ### What is read is derived -/

theorem Level.operator?_eq_some {level : Level} {t : Token} (h : level.operator? t = some op) :
    t = .operator op ∧ op ∈ level := by
  unfold operator? at h
  split at h
  · split at h
    · next hmem =>
      cases h
      exact ⟨rfl, hmem⟩
    · cases h
  · cases h

/-- What is read with a function applied to it was read before. -/
theorem Reader.map_eq_ok {α β : Type} {f : α → β} {reader : Reader α} {y : β}
    (h : reader.map f ts = .ok (y, rest)) : ∃ x, reader ts = .ok (x, rest) ∧ f x = y := by
  rw [Reader.map] at h
  rcases hread : reader ts with err | ⟨x, rest'⟩
  · rw [hread] at h
    cases h
  · rw [hread] at h
    cases h
    exact ⟨x, rfl, rfl⟩

/-- What a reader takes from the front of a list is derived by a rank. -/
def Reader.Sound (reader : Reader Expr) (rank : Rank) : Prop :=
  ∀ ⦃ts rest e⦄, reader ts = .ok (e, rest) →
    ∃ used, ts = used ++ rest ∧ Derives rank rest.head? used e

theorem sound_bracketed {inner : Reader Expr} (h : inner.Sound .comparison)
    (hread : bracketed inner ts = .ok (e, rest)) :
    ∃ used, ts = used ++ .closeBracket :: rest ∧
      Derives .comparison (some .closeBracket) used e := by
  unfold bracketed at hread
  split at hread
  · cases hread
  · next hinner =>
    cases hread
    exact h hinner
  · cases hread

theorem sound_primary {inner : Reader Expr} (h : inner.Sound .comparison) :
    (primary inner).Sound .operand := by
  intro ts rest e hread
  unfold primary at hread
  split at hread
  · cases hread
    exact ⟨[_], rfl, .number _⟩
  · next name body =>
    split at hread
    · next hname =>
      obtain ⟨x, hbody, rfl⟩ := Reader.map_eq_ok hread
      obtain ⟨used, rfl, hused⟩ := sound_bracketed h hbody
      exact ⟨_, by simp, .call hname hused⟩
    · cases hread
  · next name body hnot =>
    cases hread
    refine ⟨[_], rfl, .name _ ?_⟩
    intro hnext
    obtain ⟨tail, rfl⟩ := List.head?_eq_some_iff.mp hnext
    exact hnot tail rfl
  · obtain ⟨used, rfl, hused⟩ := sound_bracketed h hread
    exact ⟨_, by simp, .bracket hused⟩
  · cases hread

theorem sound_unary {inner : Reader Expr} (h : inner.Sound .comparison) :
    (unary inner).Sound .negation := by
  intro ts rest e hread
  induction ts generalizing rest e with
  | nil =>
    rw [unary_of_head (by simp)] at hread
    obtain ⟨used, hused, hderives⟩ := sound_primary h hread
    exact ⟨used, hused, .ofOperand hderives⟩
  | cons t ts ih =>
    by_cases ht : t = .operator .sub
    · subst ht
      rw [unary_sub] at hread
      obtain ⟨x, hrest, rfl⟩ := Reader.map_eq_ok hread
      obtain ⟨used, rfl, hused⟩ := ih hrest
      exact ⟨_, rfl, .negate hused⟩
    · rw [unary_of_head (by simpa using ht)] at hread
      obtain ⟨used, hused, hderives⟩ := sound_primary h hread
      exact ⟨used, hused, .ofOperand hderives⟩

theorem sound_chain {operand : Reader Expr} {rank : Rank} (h : operand.Sound rank) {level : Level}
    {c : Chain} (hread : chain level operand ts = .ok (c, rest)) :
    ∃ used, ts = used ++ rest ∧ Operands level rank rest.head? used c := by
  unfold chain at hread
  generalize ts.length + 1 = n at hread
  induction n generalizing ts rest c with
  | zero => cases hread
  | succ n ih =>
    rw [chainUpTo] at hread
    split at hread
    · cases hread
    · next hx =>
      cases hread
      obtain ⟨used, rfl, hused⟩ := h hx
      exact ⟨used, rfl, .one hused⟩
    · next x t after hx =>
      obtain ⟨used, rfl, hused⟩ := h hx
      split at hread
      · cases hread
        exact ⟨used, rfl, .one hused⟩
      · next op hop =>
        obtain ⟨rfl, hmem⟩ := Level.operator?_eq_some hop
        split at hread
        · cases hread
        · next hrest =>
          cases hread
          obtain ⟨others, rfl, hothers⟩ := ih hrest
          exact ⟨_, by simp, .more hused hmem hothers⟩

/-- A level that goes over a chain of operands is as sound as the operands are. -/
theorem sound_map {operand : Reader Expr} {rank tighter : Rank} (h : operand.Sound tighter)
    {level : Level} {group : Chain → Expr}
    (hgroup : ∀ {next ts c}, Operands level tighter next ts c → Derives rank next ts (group c)) :
    ((chain level operand).map group).Sound rank := by
  intro ts rest e hread
  obtain ⟨c, hchain, rfl⟩ := Reader.map_eq_ok hread
  obtain ⟨used, rfl, hused⟩ := sound_chain h hchain
  exact ⟨used, rfl, hgroup hused⟩

theorem sound_additive {inner : Reader Expr} (h : inner.Sound .comparison) :
    (additive inner).Sound .sum := by
  have hpower : (power inner).Sound .power := sound_map (sound_unary h) Operands.toRight
  have hterm : (term inner).Sound .product :=
    sound_map hpower (Operands.toLeft Derives.ofPower Derives.multiply)
  exact sound_map hterm (Operands.toLeft Derives.ofProduct Derives.add)

theorem sound_comparison {inner : Reader Expr} (h : inner.Sound .comparison) :
    (comparison inner).Sound .comparison := by
  intro ts rest e hread
  unfold comparison at hread
  split at hread
  · cases hread
  · next hl =>
    cases hread
    obtain ⟨used, rfl, hused⟩ := sound_additive h hl
    exact ⟨used, rfl, .ofSum hused⟩
  · next l t after hl =>
    obtain ⟨used, rfl, hused⟩ := sound_additive h hl
    split at hread
    · cases hread
      exact ⟨used, rfl, .ofSum hused⟩
    · next op hop =>
      obtain ⟨rfl, hmem⟩ := Level.operator?_eq_some hop
      obtain ⟨r, hright, rfl⟩ := Reader.map_eq_ok hread
      obtain ⟨others, rfl, hothers⟩ := sound_additive h hright
      exact ⟨_, by simp, .compare hmem hused hothers⟩

/-- What is read of an expression is a comparison of the grammar. -/
theorem sound_expression (n : Nat) : (expression n).Sound .comparison := by
  induction n with
  | zero =>
    intro ts rest e hread
    cases hread
  | succ n ih => exact sound_comparison ih

/-! ### What is derived is read -/

/-- None of some operators follows. -/
def Ends (ops : List Operator) (next : Option Token) : Prop :=
  ∀ op ∈ ops, next ≠ some (.operator op)

theorem ends_of_disjoint {ops : List Operator} (h : op ∉ ops) : Ends ops (some (.operator op)) := by
  rintro op' hmem heq
  cases heq
  exact h hmem

theorem Ends.mono {ops ops' : List Operator} (h : Ends ops next) (hsub : ops' ⊆ ops) :
    Ends ops' next :=
  fun op hmem => h op (hsub hmem)

theorem Level.operator?_eq_none {level : Level} {t : Token} (h : Ends level (some t)) :
    level.operator? t = none := by
  unfold operator?
  split
  · next op =>
    rw [if_neg]
    intro hmem
    exact h op hmem rfl
  · rfl

theorem Level.operator?_of_mem {level : Level} (h : op ∈ level) :
    level.operator? (.operator op) = some op := by
  rw [operator?, if_pos h]

/-- The operators that an expression of a rank goes on with. -/
def Rank.operators : Rank → List Operator
  | .comparison => comparisons ++ sums ++ products ++ powers
  | .sum => sums ++ products ++ powers
  | .product => products ++ powers
  | .power => powers
  | .negation => []
  | .operand => []

/-- A reader takes what a rank derives in fewer tokens than a bound, if the expression does not
go on behind it. -/
def Reader.Complete (reader : Reader Expr) (rank : Rank) (bound : Nat) : Prop :=
  ∀ ⦃ts rest e⦄, ts.length < bound → Derives rank rest.head? ts e →
    Ends rank.operators rest.head? → reader (ts ++ rest) = .ok (e, rest)

theorem complete_bracketed {inner : Reader Expr} {bound : Nat}
    (h : inner.Complete .comparison bound) (hbound : ts.length < bound)
    (hderives : Derives .comparison (some .closeBracket) ts e) (rest : List Token) :
    bracketed inner (ts ++ .closeBracket :: rest) = .ok (e, rest) := by
  have hinner : inner (ts ++ .closeBracket :: rest) = .ok (e, .closeBracket :: rest) := by
    refine h hbound hderives ?_
    intro op _ heq
    cases heq
  rw [bracketed, hinner]

theorem complete_primary {inner : Reader Expr} {bound : Nat}
    (h : inner.Complete .comparison bound) : (primary inner).Complete .operand (bound + 1) := by
  intro ts rest e hbound hderives _
  cases hderives with
  | number x => rfl
  | name name hnext =>
    rcases rest with _ | ⟨t, rest⟩
    · rfl
    · cases t with
      | openBracket => exact absurd rfl hnext
      | _ => rfl
  | @call _ us _ name hname hus =>
    have hbody := complete_bracketed h (by simp at hbound; omega) hus rest
    rw [List.cons_append, List.cons_append, List.append_assoc, List.singleton_append, primary,
      if_pos hname, Reader.map, hbody]
  | @bracket _ us _ hus =>
    rw [List.cons_append, List.append_assoc, List.singleton_append, primary]
    exact complete_bracketed h (by simp at hbound; omega) hus rest

/-- An operand does not begin with a minus sign. -/
theorem Derives.operand_head (h : Derives .operand next ts e) :
    ∃ t tail, ts = t :: tail ∧ t ≠ .operator .sub := by
  cases h with
  | number x => exact ⟨_, _, rfl, by simp⟩
  | name name _ => exact ⟨_, _, rfl, by simp⟩
  | call _ _ => exact ⟨_, _, rfl, by simp⟩
  | bracket _ => exact ⟨_, _, rfl, by simp⟩

theorem complete_unary {inner : Reader Expr} {bound : Nat}
    (h : inner.Complete .comparison bound) : (unary inner).Complete .negation (bound + 1) := by
  intro ts rest e hbound hderives hends
  induction ts generalizing e with
  | nil =>
    cases hderives with
    | ofOperand hoperand =>
      obtain ⟨t, tail, heq, -⟩ := hoperand.operand_head
      cases heq
  | cons t ts ih =>
    cases hderives with
    | ofOperand hoperand =>
      obtain ⟨_, _, heq, hne⟩ := hoperand.operand_head
      cases heq
      rw [List.cons_append, unary_of_head (by simpa using hne)]
      exact complete_primary h hbound hoperand fun _ hmem => absurd hmem List.not_mem_nil
    | negate hnegation =>
      rw [List.length_cons] at hbound
      rw [List.cons_append, unary_sub, Reader.map, ih (by omega) hnegation]

/-- Operands in a row are read, with a bound of one more than there are operators. -/
theorem complete_chainUpTo {operand : Reader Expr} {rank : Rank} {bound n : Nat}
    (h : operand.Complete rank bound) {level : Level} {c : Chain}
    (hdisjoint : ∀ op ∈ level, op ∉ rank.operators)
    (hbound : ts.length < bound) (hn : c.tail.length < n)
    (hoperands : Operands level rank rest.head? ts c)
    (hends : Ends level rest.head?) (hends' : Ends rank.operators rest.head?) :
    chainUpTo level operand n (ts ++ rest) = .ok (c, rest) := by
  induction hoperands generalizing n with
  | one hx =>
    obtain ⟨n, rfl⟩ : ∃ m, n = m + 1 := ⟨n - 1, by omega⟩
    rw [chainUpTo, h hbound hx hends']
    cases rest with
    | nil => rfl
    | cons t rest =>
      dsimp only
      rw [Level.operator?_eq_none hends]
  | @more ts us x y op tail hx hop hrest ih =>
    obtain ⟨n, rfl⟩ : ∃ m, n = m + 1 := ⟨n - 1, by omega⟩
    rw [List.length_append, List.length_cons] at hbound
    have hfirst : operand (ts ++ .operator op :: (us ++ rest)) =
        .ok (x, .operator op :: (us ++ rest)) :=
      h (by omega) hx (ends_of_disjoint (hdisjoint op hop))
    have hothers := ih (n := n) (by omega) (Nat.lt_of_succ_lt_succ hn)
    rw [List.append_assoc, List.cons_append, chainUpTo, hfirst]
    dsimp only
    rw [Level.operator?_of_mem hop]
    dsimp only
    rw [hothers]

theorem Operands.length_tail {level : Level} {rank : Rank} {c : Chain}
    (h : Operands level rank next ts c) : c.tail.length ≤ ts.length := by
  induction h with
  | one _ => exact Nat.zero_le _
  | more _ _ _ ih =>
    dsimp only at ih ⊢
    rw [List.length_append, List.length_cons, List.length_cons]
    omega

theorem complete_map {operand : Reader Expr} {rank tighter : Rank} {bound : Nat}
    (h : operand.Complete tighter bound) {level : Level} {group : Chain → Expr}
    (hdisjoint : ∀ op ∈ level, op ∉ tighter.operators)
    (hoperators : rank.operators = level ++ tighter.operators)
    (hgroup : ∀ {next ts e}, Derives rank next ts e →
      ∃ c, Operands level tighter next ts c ∧ group c = e) :
    ((chain level operand).map group).Complete rank bound := by
  intro ts rest e hbound hderives hends
  obtain ⟨c, hc, rfl⟩ := hgroup hderives
  rw [hoperators] at hends
  have htail := hc.length_tail
  have hread := complete_chainUpTo (n := (ts ++ rest).length + 1) h hdisjoint hbound
    (by rw [List.length_append]; omega) hc (hends.mono (List.subset_append_left ..))
    (hends.mono (List.subset_append_right ..))
  rw [Reader.map, chain, hread]

theorem complete_additive {inner : Reader Expr} {bound : Nat}
    (h : inner.Complete .comparison bound) : (additive inner).Complete .sum (bound + 1) := by
  have hpower : (power inner).Complete .power (bound + 1) :=
    complete_map (complete_unary h) (by decide) rfl Derives.operands
  have hterm : (term inner).Complete .product (bound + 1) :=
    complete_map hpower (by decide) rfl Derives.operands
  exact complete_map hterm (by decide) rfl Derives.operands

theorem complete_comparison {inner : Reader Expr} {bound : Nat}
    (h : inner.Complete .comparison bound) :
    (comparison inner).Complete .comparison (bound + 1) := by
  intro ts rest e hbound hderives hends
  have hsum : Ends Rank.sum.operators rest.head? := hends.mono (by decide)
  cases hderives with
  | ofSum hs =>
    rw [comparison, complete_additive h hbound hs hsum]
    cases rest with
    | nil => rfl
    | cons t rest =>
      have hnone : comparisons.operator? t = none :=
        Level.operator?_eq_none (hends.mono (by decide))
      dsimp only
      rw [hnone]
  | @compare _ ts us l r op hop hl hr =>
    rw [List.length_append, List.length_cons] at hbound
    have hdisjoint : ∀ op ∈ comparisons, op ∉ Rank.sum.operators := by decide
    have hleft : additive inner (ts ++ .operator op :: (us ++ rest)) =
        .ok (l, .operator op :: (us ++ rest)) :=
      complete_additive h (by omega) hl (ends_of_disjoint (hdisjoint op hop))
    rw [List.append_assoc, List.cons_append, comparison, hleft]
    dsimp only
    rw [Level.operator?_of_mem hop]
    dsimp only
    rw [Reader.map, complete_additive h (by omega) hr hsum]

/-- A comparison of the grammar is read if the bound is more than its tokens. -/
theorem complete_expression (n : Nat) : (expression n).Complete .comparison n := by
  induction n with
  | zero =>
    intro ts rest e hbound
    exact absurd hbound (Nat.not_lt_zero _)
  | succ n ih => exact complete_comparison ih

/-! ### Whole lists of tokens -/

theorem splitTarget_of_assign_not_mem (h : Token.operator .assign ∉ ts) :
    splitTarget ts = (none, ts) := by
  unfold splitTarget
  split
  · simp at h
  · rfl

/-- A list of tokens is read if the grammar derives it, and then as the tree that it derives. -/
theorem ofTokens_eq_ok_iff (display : String) (ts : List Token) (e : Expr) :
    Expr.ofTokens display ts = .ok e ↔ Sentence ts e := by
  have hbody : ∀ {body : List Token} {e : Expr},
      expression (body.length + 1) body = .ok (e, []) ↔ Derives .comparison none body e := by
    intro body e
    constructor
    · intro h
      obtain ⟨used, hused, hderives⟩ := sound_expression _ h
      rw [List.append_nil] at hused
      rwa [hused]
    · intro h
      have hread : expression (body.length + 1) (body ++ []) = .ok (e, []) :=
        complete_expression _ (Nat.lt_succ_self _) h fun op _ heq => by cases heq
      rwa [List.append_nil] at hread
  constructor
  · intro h
    unfold Expr.ofTokens splitTarget at h
    split at h
    · next target body heq =>
      split at h
      · cases h
      · next value hvalue =>
        cases h
        split at heq
        · cases heq
          exact .assign _ (hbody.mp hvalue)
        · cases heq
          exact .value (hbody.mp hvalue)
      · cases h
  · intro h
    cases h with
    | value h =>
      rw [Expr.ofTokens, splitTarget_of_assign_not_mem h.assign_not_mem]
      dsimp only
      rw [hbody.mpr h]
      rfl
    | assign name h =>
      rw [Expr.ofTokens, splitTarget]
      dsimp only
      rw [hbody.mpr h]
      rfl

end Worksheet.Arithmetic
