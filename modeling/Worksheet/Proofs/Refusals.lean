/-
What the engine quotes when it refuses an expression.

The engine for real arithmetic says why it cannot read an expression, and quotes what it does
not understand: a lexeme, a name, a symbol or the whole expression with its input values.  A value
is part of an expression only if it reads as a number, so whatever the input values are, a text
without the bracket that opens a tag is refused in words without that bracket.

* `Number.readChars?_not_mem` — what is in no number;
* `ArithmeticError.quoted` — the part of an error that is taken from the text;
* `Reader.Quiet` — readers that quote nothing but names among their tokens;
* `scan_bare`, `lexemes_bare` — what is cut from a text without the bracket;
* `Engine.refused_bare` — the words of a refusal.
-/
import Worksheet.Proofs.Reading

namespace Worksheet

/-! ### Numbers -/

namespace Number

/-- A character that stands in no number. -/
structure Foreign (d : Char) : Prop where
  digit : d.isDigit = false
  mark : d ∉ ['+', '-', '.', 'e', 'E']
  letter : d.toLower ∉ "infinity".toList ++ "nan".toList

instance (d : Char) : Decidable (Foreign d) :=
  decidable_of_iff (d.isDigit = false ∧ d ∉ ['+', '-', '.', 'e', 'E'] ∧
    d.toLower ∉ "infinity".toList ++ "nan".toList)
    ⟨fun ⟨digit, mark, letter⟩ => ⟨digit, mark, letter⟩,
      fun ⟨digit, mark, letter⟩ => ⟨digit, mark, letter⟩⟩

variable {d : Char} {cs : List Char}

theorem mem_splitSign (hd : Foreign d) (h : d ∈ cs) : d ∈ (splitSign cs).2 := by
  have htail : ∀ {c : Char} {rest : List Char}, c ∈ ['+', '-', '.', 'e', 'E'] → d ∈ c :: rest →
      d ∈ rest := by
    intro c rest hc hmem
    rcases List.mem_cons.mp hmem with rfl | hmem
    · exact absurd hc hd.mark
    · exact hmem
  unfold splitSign
  split
  · exact htail (by decide) h
  · exact htail (by decide) h
  · exact h

theorem readInteger?_not_mem (hd : Foreign d) {n : Int} (h : readInteger? cs = some n) :
    d ∉ cs := by
  intro hmem
  have hmem := mem_splitSign hd hmem
  rw [readInteger?] at h
  generalize splitSign cs = r at h hmem
  obtain ⟨negative, digits⟩ := r
  dsimp only at h hmem
  split at h
  · cases h
  · next hdigits =>
    rw [Bool.or_eq_true, not_or, Bool.not_eq_true', Bool.not_eq_false, List.all_eq_true]
      at hdigits
    have hdigit := hdigits.2 d hmem
    rw [hd.digit] at hdigit
    cases hdigit

theorem readExponent?_not_mem (hd : Foreign d) {n : Int} (h : readExponent? cs = some n) :
    d ∉ cs := by
  cases cs with
  | nil => exact List.not_mem_nil
  | cons c rest =>
    rw [readExponent?] at h
    split at h
    · next hletter =>
      rw [Bool.or_eq_true, beq_iff_eq, beq_iff_eq] at hletter
      have hc : d ≠ c := by
        rintro rfl
        rcases hletter with rfl | rfl
        · exact hd.mark (by decide)
        · exact hd.mark (by decide)
      rw [List.mem_cons, not_or]
      exact ⟨hc, readInteger?_not_mem hd h⟩
    · cases h

/-- What is in a text but is no digit is left behind its first digits. -/
theorem not_mem_of_dropWhile (hd : Foreign d) (h : d ∉ cs.dropWhile Char.isDigit) : d ∉ cs := by
  rw [← List.takeWhile_append_dropWhile (p := Char.isDigit) (l := cs), List.mem_append, not_or]
  refine ⟨?_, h⟩
  intro hmem
  have hdigit := List.mem_takeWhile_imp hmem
  rw [hd.digit] at hdigit
  cases hdigit

theorem readDecimal?_not_mem (hd : Foreign d) {negative : Bool} {x : Float}
    (h : readDecimal? negative cs = some x) : d ∉ cs := by
  apply not_mem_of_dropWhile hd
  rw [readDecimal?] at h
  dsimp only at h
  generalize cs.dropWhile Char.isDigit = rest at h ⊢
  split at h
  · next after =>
    split at h
    · cases h
    · obtain ⟨exponent, hexponent, -⟩ := Option.map_eq_some_iff.mp h
      rw [List.mem_cons, not_or]
      refine ⟨?_, not_mem_of_dropWhile hd (readExponent?_not_mem hd hexponent)⟩
      rintro rfl
      exact hd.mark (by decide)
  · split at h
    · cases h
    · obtain ⟨exponent, hexponent, -⟩ := Option.map_eq_some_iff.mp h
      exact readExponent?_not_mem hd hexponent

/-- A number has digits, signs, a point and the letters of an exponent or of a word. -/
theorem readChars?_not_mem (hd : Foreign d) {x : Float} (h : readChars? cs = some x) :
    d ∉ cs := by
  intro hmem
  have hmem := mem_splitSign hd hmem
  rw [readChars?] at h
  generalize splitSign cs = r at h hmem
  obtain ⟨negative, magnitude⟩ := r
  dsimp only at h hmem
  split at h
  · next hdecimal => exact readDecimal?_not_mem hd hdecimal hmem
  · -- a word has the letters of one of three words, in any case
    have hlower : d.toLower ∈ magnitude.map Char.toLower := List.mem_map_of_mem hmem
    have hletter := hd.letter
    rw [List.mem_append, not_or] at hletter
    rw [readWord?] at h
    split at h
    · next hword =>
      rcases hword with hword | hword
      · rw [hword] at hlower
        have hsub : "inf".toList ⊆ "infinity".toList := by decide
        exact hletter.1 (hsub hlower)
      · rw [hword] at hlower
        exact hletter.1 hlower
    split at h
    · next hword =>
      rw [hword] at hlower
      exact hletter.2 hlower
    · cases h

end Number

namespace Arithmetic

/-! ### Errors -/

/-- The part of an error that is taken from the text of the expression. -/
def ArithmeticError.quoted : ArithmeticError → List Char
  | .invalidNumber lexeme => lexeme.toList
  | .invalidSymbol symbol => [symbol]
  | .unknownFunction name => name.toList
  | .unexpectedSymbol display => display.toList
  | .undefinedVariable name => name.toList
  | .invalidOperator symbol => symbol.toList
  | _ => []

/-- The words of an error have no bracket of their own. -/
theorem ArithmeticError.message_bare {e : ArithmeticError} (h : '<' ∉ e.quoted) :
    '<' ∉ e.message.toList := by
  have hbetween : ∀ before after quoted : String, '<' ∉ before.toList → '<' ∉ after.toList →
      '<' ∉ quoted.toList → '<' ∉ (before ++ quoted ++ after).toList := by
    intro before after quoted hbefore hafter hquoted
    rw [String.toList_append, String.toList_append, List.mem_append, List.mem_append, not_or,
      not_or]
    exact ⟨⟨hbefore, hquoted⟩, hafter⟩
  cases e with
  | invalidNumber lexeme => exact hbetween _ _ _ (by decide) (by decide) h
  | invalidSymbol symbol =>
    refine hbetween _ _ _ (by decide) (by decide) ?_
    rw [Char.toString, String.toList_singleton]
    exact h
  | unknownFunction name => exact hbetween _ _ _ (by decide) (by decide) h
  | unexpectedSymbol display => exact hbetween _ _ _ (by decide) (by decide) h
  | undefinedVariable name => exact hbetween _ _ _ (by decide) (by decide) h
  | invalidOperator symbol => exact hbetween _ _ _ (by decide) (by decide) h
  | _ => decide

/-- What holds of a result, unless it is an error; the error quotes no bracket. -/
def Safely {α : Type} (P : α → Prop) : Except ArithmeticError α → Prop
  | .error e => '<' ∉ e.quoted
  | .ok x => P x

/-! ### Readers -/

/-- The names among some tokens have no bracket. -/
def Bare (ts : List Token) : Prop :=
  ∀ name, Token.name name ∈ ts → '<' ∉ name.toList

theorem Bare.tail {t : Token} {ts : List Token} (h : Bare (t :: ts)) : Bare ts :=
  fun name hmem => h name (List.mem_cons_of_mem t hmem)

/-- A reader that quotes no bracket if the names among its tokens have none. -/
def Reader.Quiet {α : Type} (reader : Reader α) : Prop :=
  ∀ ts, Bare ts → Safely (fun r => Bare r.2) (reader ts)

variable {α β : Type} {operand inner : Reader Expr}

theorem quiet_chain (h : operand.Quiet) (level : Level) : (chain level operand).Quiet := by
  have hupTo : ∀ n, Reader.Quiet (chainUpTo level operand n) := by
    intro n
    induction n with
    | zero =>
      intro ts _
      exact List.not_mem_nil
    | succ n ih =>
      intro ts hts
      have hoperand := h ts hts
      rw [chainUpTo]
      generalize operand ts = r at hoperand ⊢
      rcases r with e | ⟨x, _ | ⟨t, rest⟩⟩
      · exact hoperand
      · exact hoperand
      dsimp only
      rcases level.operator? t with _ | op
      · exact hoperand
      have hrest := ih rest (Bare.tail hoperand)
      dsimp only
      generalize chainUpTo level operand n rest = r at hrest ⊢
      rcases r with e | ⟨⟨y, tail⟩, rest⟩
      · exact hrest
      · exact hrest
  intro ts
  exact hupTo (ts.length + 1) ts

theorem Reader.Quiet.map {reader : Reader α} (h : reader.Quiet) (f : α → β) :
    (reader.map f).Quiet := by
  intro ts hts
  have hreader := h ts hts
  rw [Reader.map]
  generalize reader ts = r at hreader ⊢
  rcases r with e | ⟨x, rest⟩
  · exact hreader
  · exact hreader

theorem quiet_bracketed (h : inner.Quiet) : (bracketed inner).Quiet := by
  intro ts hts
  have hinner := h ts hts
  rw [bracketed]
  generalize inner ts = r at hinner ⊢
  rcases r with e | ⟨x, rest⟩
  · exact hinner
  · cases rest with
    | nil => exact List.not_mem_nil
    | cons t rest =>
      cases t with
      | closeBracket => exact Bare.tail hinner
      | _ => exact List.not_mem_nil

theorem quiet_primary (h : inner.Quiet) : (primary inner).Quiet := by
  intro ts hts
  rw [primary.eq_def]
  split
  · exact Bare.tail hts
  · next text rest =>
    split
    · exact (quiet_bracketed h).map (Expr.call text) rest (Bare.tail (Bare.tail hts))
    · exact hts text (List.mem_cons_self ..)
  · exact Bare.tail hts
  · exact quiet_bracketed h _ (Bare.tail hts)
  · exact List.not_mem_nil

theorem quiet_unary (h : inner.Quiet) : (unary inner).Quiet := by
  intro ts hts
  induction ts with
  | nil =>
    rw [unary_of_head (by simp)]
    exact quiet_primary h [] hts
  | cons t ts ih =>
    by_cases ht : t = .operator .sub
    · have hrest := ih hts.tail
      rw [ht, unary_sub, Reader.map]
      generalize unary inner ts = r at hrest ⊢
      rcases r with e | ⟨x, rest⟩
      · exact hrest
      · exact hrest
    · rw [unary_of_head (by simpa using ht)]
      exact quiet_primary h (t :: ts) hts

/-- The levels of the grammar quote names only. -/
theorem quiet_expression (n : Nat) : (expression n).Quiet := by
  induction n with
  | zero =>
    intro ts _
    exact List.not_mem_nil
  | succ n ih =>
    have hterm := (quiet_chain ((quiet_chain (quiet_unary ih) powers).map Chain.toRight)
      products).map Chain.toLeft
    have hsum : (additive (expression n)).Quiet := (quiet_chain hterm sums).map Chain.toLeft
    intro ts hts
    have hleft := hsum ts hts
    rw [expression, comparison]
    generalize additive (expression n) ts = r at hleft ⊢
    rcases r with e | ⟨l, _ | ⟨t, rest⟩⟩
    · exact hleft
    · exact hleft
    dsimp only
    rcases comparisons.operator? t with _ | op
    · exact hleft
    · exact hsum.map (Expr.binary op l) rest (Bare.tail hleft)

/-- Tokens that make up no expression are refused with a name, or with the whole. -/
theorem ofTokens_bare {display : String} {ts : List Token} {e : ArithmeticError}
    (hdisplay : '<' ∉ display.toList) (hts : Bare ts)
    (h : Expr.ofTokens display ts = .error e) : '<' ∉ e.quoted := by
  have hbody : Bare (splitTarget ts).2 := by
    unfold splitTarget
    split
    · exact Bare.tail (Bare.tail hts)
    · exact hts
  rw [Expr.ofTokens] at h
  generalize splitTarget ts = r at h hbody
  obtain ⟨target, body⟩ := r
  have hread := quiet_expression (body.length + 1) body hbody
  dsimp only at h
  generalize expression (body.length + 1) body = r at h hread
  rcases r with e' | ⟨value, _ | ⟨t, rest⟩⟩
  · cases h
    exact hread
  · cases h
  · cases h
    exact hdisplay

/-! ### Texts -/

/-- A lexeme has no bracket, and displays none. -/
def Lexeme.Bare (l : Lexeme) : Prop :=
  '<' ∉ l.shown ∧ ∀ name, l.token = some (.name name) → '<' ∉ name.toList

/-- The first lexeme of a text without the bracket has none, nor has the error if there is
none. -/
theorem scan_bare {q : InputQueue} {c : Char} {cs : List Char} (h : '<' ∉ c :: cs) :
    Safely (fun r => r.1.Bare ∧ '<' ∉ r.2) (scan q c cs).1 := by
  have hhead : '<' ∉ [c] := by
    intro hmem
    rw [List.mem_singleton.mp hmem] at h
    exact h (List.mem_cons_self ..)
  have htail : '<' ∉ cs := fun hmem => h (List.mem_cons_of_mem c hmem)
  have htake : ∀ p : Char → Bool, '<' ∉ c :: cs.takeWhile p := by
    intro p hmem
    rcases List.mem_cons.mp hmem with heq | hmem
    · exact h (heq ▸ List.mem_cons_self ..)
    · exact htail ((List.takeWhile_prefix p).subset hmem)
  have hdrop : ∀ p : Char → Bool, '<' ∉ cs.dropWhile p :=
    fun p hmem => htail ((List.dropWhile_suffix p).subset hmem)
  rw [scan]
  split
  · exact ⟨⟨hhead, by simp⟩, htail⟩
  split
  · dsimp only
    split
    · next x hx => exact ⟨⟨Number.readChars?_not_mem (by decide) hx, by simp⟩, htail⟩
    · exact List.not_mem_nil
  split
  · dsimp only
    split
    · exact ⟨⟨htake _, by simp⟩, hdrop _⟩
    · show '<' ∉ (String.ofList _).toList
      rw [String.toList_ofList]
      exact htake _
  split
  · refine ⟨⟨htake _, ?_⟩, hdrop _⟩
    intro name hname
    obtain rfl := Token.name.inj (Option.some.inj hname)
    rw [String.toList_ofList]
    exact htake _
  split
  · exact ⟨⟨hhead, by simp⟩, htail⟩
  split
  · exact ⟨⟨hhead, by simp⟩, htail⟩
  split
  · next op rest hop =>
    rw [Operator.read?_append hop, List.mem_append, not_or] at h
    exact ⟨⟨h.1, by simp⟩, h.2⟩
  · exact hhead

theorem lexemes_bare {q : InputQueue} {cs : List Char} (h : '<' ∉ cs) :
    Safely (fun found => ∀ l ∈ found, l.Bare) (lexemes q cs).1 := by
  fun_induction lexemes q cs with
  | case1 q =>
    intro l hmem
    cases hmem
  | case2 q c cs e next hscan =>
    have hbare := scan_bare (q := q) h
    rwa [hscan] at hbare
  | case3 q c cs lexeme rest next hscan outcome queue hrest ih =>
    have hbare := scan_bare (q := q) h
    rw [hscan] at hbare
    have hothers := ih hbare.2
    rw [hrest] at hothers
    rcases outcome with e | found
    · exact hothers
    · intro l hmem
      rcases List.mem_cons.mp hmem with rfl | hmem
      · exact hbare.1
      · exact hothers l hmem

/-! ### The engine -/

/-- A text without the bracket is refused in words without it, whatever the input values. -/
theorem Engine.read_bare {text : String} {inputs after : InputQueue} {e : ArithmeticError}
    (htext : '<' ∉ text.toList) (h : read text inputs = (.error e, after)) :
    '<' ∉ e.quoted := by
  have htrim : '<' ∉ Text.trim text.toList := fun hmem => htext (Text.mem_of_mem_trim hmem)
  have hlexemes := lexemes_bare (q := inputs) htrim
  rw [read, tokens] at h
  generalize lexemes inputs (Text.trim text.toList) = r at h hlexemes
  rcases r with ⟨e' | found, queue⟩
  · cases h
    exact hlexemes
  dsimp only at h
  split at h
  · next hreading =>
    split at hreading
    · cases hreading
      cases h
      exact List.not_mem_nil
    · cases hreading
  · next reading _ hreading =>
    split at hreading
    · cases hreading
    · cases hreading
      obtain ⟨herror, -⟩ := Prod.mk.inj h
      have hdisplay : '<' ∉ (String.ofList (found.flatMap Lexeme.shown)).toList := by
        rw [String.toList_ofList, List.mem_flatMap]
        rintro ⟨l, hl, hmem⟩
        exact (hlexemes l hl).1 hmem
      have htokens : Bare (found.filterMap Lexeme.token) := by
        intro name hmem
        obtain ⟨l, hl, htoken⟩ := List.mem_filterMap.mp hmem
        exact (hlexemes l hl).2 name htoken
      rcases hof : Expr.ofTokens (String.ofList (found.flatMap Lexeme.shown))
        (found.filterMap Lexeme.token) with e' | expr
      · rw [hof] at herror
        cases herror
        exact ofTokens_bare hdisplay htokens hof
      · rw [hof] at herror
        cases herror

theorem Engine.refused_bare {text message : String} {inputs : InputQueue} {e : Engine}
    (htext : '<' ∉ text.toList)
    (h : (MathEngine.parse text inputs e).1.outcome = .error (.refused message)) :
    '<' ∉ message.toList := by
  have hread : ∀ err after, read text inputs = (.error err, after) → '<' ∉ err.quoted :=
    fun err after => read_bare htext
  have houtcome : outcome (parse text inputs e).1 = .error (.refused message) := h
  rw [parse] at houtcome
  rcases hr : read text inputs with ⟨err | ⟨expr, display⟩, after⟩
  · rw [hr] at houtcome
    cases houtcome
    exact ArithmeticError.message_bare (hread err after hr)
  · rw [hr] at houtcome
    cases houtcome

end Arithmetic

end Worksheet
