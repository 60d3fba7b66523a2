/-
How an expression is cut into tokens.

The tokens of an expression are its words from left to right, each as long as it can be, with
blanks between them and a number in the place of each placeholder.  This says what the words
are and what it means to cut a text into them, without the order in which a reader tries the
kinds of words, and it says where a text cannot be cut any further.

* `Word` — the words, and the token that each stands for;
* `LongestWord` — the longest word that a text starts with;
* `Cut`, `Cuts` — one cut and any number of them;
* `Stuck` — a text from which nothing can be cut;
* `scan_cut` — one lexeme;
* `tokens_ok`, `tokens_error` — all of them;
* `tokens_conserve` — the tokens, the text on display and the values that are taken.
-/
import Worksheet.Proofs.Reading
import Mathlib.Data.List.Basic

namespace Worksheet

/-! ### Characters -/

/-- Before the first letter of the code there are none. -/
theorem Text.startsName_of_lt {c : Char} (h : c.toNat < 0x41) : startsName c = false := by
  have hletter : isLetter c = false := if_pos h
  have hunderscore : (c == '_') = false := by
    rw [beq_eq_false_iff_ne]
    rintro rfl
    exact absurd h (by decide)
  rw [startsName, hletter, hunderscore]
  rfl

/-- The blanks behind the first letter of the code. -/
def Text.laterBlanks : List Nat :=
  [0x85, 0xa0, 0x1680, 0x2000, 0x2001, 0x2002, 0x2003, 0x2004, 0x2005, 0x2006, 0x2007, 0x2008,
   0x2009, 0x200a, 0x2028, 0x2029, 0x202f, 0x205f, 0x3000]

theorem Text.inRanges_laterBlanks : ∀ n ∈ laterBlanks, inRanges n letterRanges = false := by
  decide +kernel

/-- No blank is a letter. -/
theorem Text.startsName_of_isBlank {c : Char} (h : isBlank c = true) : startsName c = false := by
  by_cases hlt : c.toNat < 0x41
  · exact startsName_of_lt hlt
  have hmem : c.toNat ∈ laterBlanks := by
    simp only [isBlank, Bool.or_eq_true, Bool.and_eq_true, decide_eq_true_eq, beq_iff_eq] at h
    simp only [laterBlanks, List.mem_cons, List.not_mem_nil, or_false]
    omega
  have hunderscore : (c == '_') = false := by
    rw [beq_eq_false_iff_ne]
    rintro rfl
    exact absurd h (by decide)
  rw [startsName, isLetter, inRanges_laterBlanks _ hmem, hunderscore]
  rfl

namespace Arithmetic

/-- The digits and the point. -/
theorem toNat_of_inNumber {c : Char} (h : inNumber c = true) :
    0x2e ≤ c.toNat ∧ c.toNat ≤ 0x39 := by
  rw [inNumber, Bool.or_eq_true, beq_iff_eq] at h
  rcases h with hdigit | rfl
  · have hrange := Char.isDigit_iff_toNat.mp hdigit
    exact ⟨Nat.le_trans (by decide) hrange.1, hrange.2⟩
  · decide

theorem startsName_of_inNumber {c : Char} (h : inNumber c = true) :
    Text.startsName c = false :=
  Text.startsName_of_lt (Nat.lt_of_le_of_lt (toNat_of_inNumber h).2 (by decide))

theorem isBlank_of_inNumber {c : Char} (h : inNumber c = true) : Text.isBlank c = false := by
  have hrange := toNat_of_inNumber h
  simp only [Text.isBlank, Bool.or_eq_false_iff, Bool.and_eq_false_iff, decide_eq_false_iff_not,
    beq_eq_false_iff_ne]
  omega

/-! ### Words -/

section Words

/-- The words of an expression, and the token that each stands for; a run of digits and points
that is no number stands for none. -/
inductive Word : List Char → Option Token → Prop
  | number {c cs} (h : ∀ d ∈ c :: cs, inNumber d = true) :
      Word (c :: cs) ((Number.readChars? (c :: cs)).map .number)
  | name {c cs} (hc : Text.startsName c = true) (hcs : ∀ d ∈ cs, Text.continuesName d = true) :
      Word (c :: cs) (some (.name (String.ofList (c :: cs))))
  | openBracket : Word ['('] (some .openBracket)
  | closeBracket : Word [')'] (some .closeBracket)
  | operator (op : Operator) : Word op.symbol (some (.operator op))

/-- A character that is in no word. -/
structure Wordless (d : Char) : Prop where
  number : inNumber d = false
  name : Text.continuesName d = false
  openBracket : d ≠ '('
  closeBracket : d ≠ ')'
  operator : ∀ op ∈ Operator.all, d ∉ op.symbol

instance (d : Char) : Decidable (Wordless d) :=
  decidable_of_iff (inNumber d = false ∧ Text.continuesName d = false ∧ d ≠ '(' ∧ d ≠ ')' ∧
    ∀ op ∈ Operator.all, d ∉ op.symbol)
    ⟨fun ⟨number, name, openBracket, closeBracket, operator⟩ =>
        ⟨number, name, openBracket, closeBracket, operator⟩,
      fun ⟨number, name, openBracket, closeBracket, operator⟩ =>
        ⟨number, name, openBracket, closeBracket, operator⟩⟩

theorem wordless_placeholder : Wordless '?' := by
  decide

variable {c : Char} {cs word rest : List Char} {t t' : Option Token}

namespace Operator

/-- The character that an operator starts with starts nothing else. -/
structure Head (c : Char) : Prop where
  blank : Text.isBlank c = false
  mark : c ≠ '?'
  number : inNumber c = false
  name : Text.startsName c = false
  bracket : ¬(c = '(' ∨ c = ')')

theorem head {op : Operator} (h : op.symbol = c :: cs) : Head c := by
  cases op <;> cases h <;> exact ⟨by decide, by decide, by decide, by decide, by decide⟩

theorem mem_all (op : Operator) : op ∈ all := by
  cases op <;> decide

theorem symbol_inj {op op' : Operator} (h : op.symbol = op'.symbol) : op = op' := by
  have hall : ∀ a ∈ all, ∀ b ∈ all, a.symbol = b.symbol → a = b := by decide
  exact hall op (mem_all op) op' (mem_all op') h

theorem length_symbol_le (op : Operator) : op.symbol.length ≤ 2 := by
  cases op <;> decide

/-- The operator that is read is the longest that the text starts with. -/
theorem read?_longest {op other : Operator} (h : read? cs = some (op, rest))
    (hother : other.symbol <+: cs) : other.symbol.length ≤ op.symbol.length := by
  have hsorted : all.Pairwise fun a b => b.symbol.length ≤ a.symbol.length := by decide
  obtain ⟨before, found, after, hall, hfound, hbefore⟩ := List.findSome?_eq_some_iff.mp h
  obtain ⟨behind, -, hpair⟩ := Option.map_eq_some_iff.mp hfound
  cases hpair
  obtain ⟨behind', rfl⟩ := hother
  have hmem := mem_all other
  rw [hall, List.mem_append, List.mem_cons] at hmem
  rcases hmem with hmem | rfl | hmem
  · -- it would have been found before
    have hnone := hbefore other hmem
    rw [(Text.stripPrefix?_eq_some_iff _ _ _).mpr rfl] at hnone
    cases hnone
  · exact Nat.le_refl _
  · rw [hall] at hsorted
    exact List.rel_of_pairwise_cons (List.pairwise_append.mp hsorted).2.1 hmem

theorem read?_eq_none {op : Operator} (h : read? cs = none) : ¬ op.symbol <+: cs := by
  rintro ⟨behind, rfl⟩
  have hnone := List.findSome?_eq_none_iff.mp h op (mem_all op)
  rw [(Text.stripPrefix?_eq_some_iff _ _ _).mpr rfl] at hnone
  cases hnone

end Operator

namespace Word

/-- A word with a digit or a point in front is a run of them. -/
theorem of_inNumber (h : Word (c :: cs) t) (hc : inNumber c = true) :
    (∀ d ∈ cs, inNumber d = true) ∧ t = (Number.readChars? (c :: cs)).map .number := by
  generalize hword : c :: cs = word at h
  cases h with
  | number hall =>
    cases hword
    exact ⟨fun d hd => hall d (List.mem_cons_of_mem c hd), rfl⟩
  | name hname _ =>
    cases hword
    rw [startsName_of_inNumber hc] at hname
    cases hname
  | openBracket =>
    cases hword
    cases hc
  | closeBracket =>
    cases hword
    cases hc
  | operator op =>
    rw [(Operator.head hword.symm).number] at hc
    cases hc

/-- A word with a letter in front is a name. -/
theorem of_startsName (h : Word (c :: cs) t) (hc : Text.startsName c = true) :
    (∀ d ∈ cs, Text.continuesName d = true) ∧ t = some (.name (String.ofList (c :: cs))) := by
  generalize hword : c :: cs = word at h
  cases h with
  | number hall =>
    cases hword
    rw [startsName_of_inNumber (hall c (List.mem_cons_self ..))] at hc
    cases hc
  | name _ hall =>
    cases hword
    exact ⟨hall, rfl⟩
  | openBracket =>
    cases hword
    exact absurd hc (by decide)
  | closeBracket =>
    cases hword
    exact absurd hc (by decide)
  | operator op =>
    rw [(Operator.head hword.symm).name] at hc
    cases hc

/-- A word with a bracket in front is that bracket. -/
theorem of_bracket (h : Word (c :: cs) t) (hc : c = '(' ∨ c = ')') :
    cs = [] ∧ t = some (if c = '(' then .openBracket else .closeBracket) := by
  generalize hword : c :: cs = word at h
  cases h with
  | number hall =>
    cases hword
    have hnumber := hall c (List.mem_cons_self ..)
    rcases hc with rfl | rfl
    · cases hnumber
    · cases hnumber
  | name hname _ =>
    cases hword
    rcases hc with rfl | rfl
    · exact absurd hname (by decide)
    · exact absurd hname (by decide)
  | openBracket =>
    cases hword
    exact ⟨rfl, rfl⟩
  | closeBracket =>
    cases hword
    exact ⟨rfl, rfl⟩
  | operator op =>
    exact absurd hc (Operator.head hword.symm).bracket

/-- Any other word is an operator. -/
theorem of_neither (h : Word (c :: cs) t) (hnumber : inNumber c = false)
    (hname : Text.startsName c = false) (hbracket : ¬(c = '(' ∨ c = ')')) :
    ∃ op : Operator, op.symbol = c :: cs ∧ t = some (.operator op) := by
  generalize hword : c :: cs = word at h
  cases h with
  | number hall =>
    cases hword
    rw [hall c (List.mem_cons_self ..)] at hnumber
    cases hnumber
  | name hc _ =>
    cases hword
    rw [hc] at hname
    cases hname
  | openBracket =>
    cases hword
    exact absurd (.inl rfl) hbracket
  | closeBracket =>
    cases hword
    exact absurd (.inr rfl) hbracket
  | operator op => exact ⟨op, rfl, rfl⟩

/-- A wordless character is in no word. -/
theorem not_mem {d : Char} (hd : Wordless d) (h : Word word t) : d ∉ word := by
  intro hmem
  cases h with
  | number hall =>
    have hnumber := hall d hmem
    rw [hd.number] at hnumber
    cases hnumber
  | name hc hcs =>
    have hname : Text.continuesName d = true := by
      rcases List.mem_cons.mp hmem with rfl | hmem
      · exact Text.continuesName_of_startsName hc
      · exact hcs d hmem
    rw [hd.name] at hname
    cases hname
  | openBracket => exact hd.openBracket (List.mem_singleton.mp hmem)
  | closeBracket => exact hd.closeBracket (List.mem_singleton.mp hmem)
  | operator op => exact hd.operator op op.mem_all hmem

/-- No word is empty, or starts with a blank or a placeholder. -/
theorem head (h : Word word t) :
    ∃ c cs, word = c :: cs ∧ Text.isBlank c = false ∧ c ≠ '?' := by
  have hcons : ∃ c cs, word = c :: cs ∧ Text.isBlank c = false := by
    cases h with
    | @number c cs hall =>
      exact ⟨c, cs, rfl, isBlank_of_inNumber (hall c (List.mem_cons_self ..))⟩
    | @name c cs hc _ =>
      refine ⟨c, cs, rfl, ?_⟩
      by_contra hblank
      rw [Text.startsName_of_isBlank (Bool.not_eq_false _ ▸ hblank)] at hc
      cases hc
    | openBracket => exact ⟨_, _, rfl, by decide⟩
    | closeBracket => exact ⟨_, _, rfl, by decide⟩
    | operator op =>
      obtain ⟨c, cs, hsymbol⟩ := List.exists_cons_of_ne_nil op.symbol_ne_nil
      exact ⟨c, cs, hsymbol, (Operator.head hsymbol).blank⟩
  obtain ⟨c, cs, rfl, hblank⟩ := hcons
  refine ⟨c, cs, rfl, hblank, ?_⟩
  rintro rfl
  exact h.not_mem wordless_placeholder (List.mem_cons_self ..)

/-- A word stands for one token at most. -/
theorem unique (h : Word word t) (h' : Word word t') : t = t' := by
  obtain ⟨c, cs, rfl, -, -⟩ := h.head
  by_cases hnumber : inNumber c = true
  · rw [(h.of_inNumber hnumber).2, (h'.of_inNumber hnumber).2]
  by_cases hname : Text.startsName c = true
  · rw [(h.of_startsName hname).2, (h'.of_startsName hname).2]
  by_cases hbracket : c = '(' ∨ c = ')'
  · rw [(h.of_bracket hbracket).2, (h'.of_bracket hbracket).2]
  rw [Bool.not_eq_true] at hnumber hname
  obtain ⟨op, hop, rfl⟩ := h.of_neither hnumber hname hbracket
  obtain ⟨op', hop', rfl⟩ := h'.of_neither hnumber hname hbracket
  rw [Operator.symbol_inj (hop.trans hop'.symm)]

end Word

/-! ### Longest words -/

/-- A word at the start of a text, where no longer one is. -/
structure LongestWord (cs word : List Char) (t : Option Token) (rest : List Char) : Prop where
  isWord : Word word t
  split : cs = word ++ rest
  longest : ∀ {other t'}, Word other t' → other <+: cs → other.length ≤ word.length

theorem LongestWord.unique {word' rest' : List Char} (h : LongestWord cs word t rest)
    (h' : LongestWord cs word' t' rest') : word = word' ∧ t = t' ∧ rest = rest' := by
  have hsplit : word ++ rest = word' ++ rest' := h.split.symm.trans h'.split
  have hle := h'.longest h.isWord (h.split ▸ List.prefix_append ..)
  have hge := h.longest h'.isWord (h'.split ▸ List.prefix_append ..)
  obtain ⟨rfl, rfl⟩ := List.append_inj hsplit (Nat.le_antisymm hle hge)
  exact ⟨rfl, h.isWord.unique h'.isWord, rfl⟩

theorem LongestWord.head (h : LongestWord (c :: cs) word t rest) :
    Text.isBlank c = false ∧ c ≠ '?' := by
  obtain ⟨d, tail, rfl, hblank, hmark⟩ := h.isWord.head
  obtain ⟨rfl, -⟩ := List.cons.inj h.split
  exact ⟨hblank, hmark⟩

/-- A run of characters of a class is a longest word if all words with its first character in
front stay in the class. -/
theorem longestWord_run {p : Char → Bool} (hword : Word (c :: cs.takeWhile p) t)
    (hclass : ∀ {other t'}, Word (c :: other) t' → ∀ d ∈ other, p d = true) :
    LongestWord (c :: cs) (c :: cs.takeWhile p) t (cs.dropWhile p) := by
  refine ⟨hword, ?_, ?_⟩
  · rw [List.cons_append, List.takeWhile_append_dropWhile]
  · intro other t' hother hprefix
    obtain ⟨d, tail, rfl, -, -⟩ := hother.head
    obtain ⟨rfl, behind, rfl⟩ := List.cons_prefix_cons.mp hprefix
    rw [List.takeWhile_append_of_pos (hclass hother), List.length_cons, List.length_cons,
      List.length_append]
    omega

/-- A single character is a longest word if it is a word of its own kind. -/
theorem longestWord_single (hword : Word [c] t)
    (hclass : ∀ {other t'}, Word (c :: other) t' → other = []) :
    LongestWord (c :: cs) [c] t cs := by
  refine ⟨hword, rfl, ?_⟩
  intro other t' hother hprefix
  obtain ⟨d, tail, rfl, -, -⟩ := hother.head
  obtain ⟨rfl, -⟩ := List.cons_prefix_cons.mp hprefix
  rw [hclass hother]

end Words

/-! ### Cutting -/

/-- One cut at the start of a text: the token, unless it is a blank, what is left of the text,
and the queue of input values before and after. -/
inductive Cut : InputQueue → List Char → Option Token → InputQueue → List Char → Prop
  | blank {q c cs} (h : Text.isBlank c = true) : Cut q (c :: cs) none q cs
  | placeholder {q cs x} (h : Number.readChars? (Text.trim q.next.1.toList) = some x) :
      Cut q ('?' :: cs) (some (.number x)) q.next.2 cs
  | word {q cs word t rest} (h : LongestWord cs word (some t) rest) : Cut q cs (some t) q rest

/-- A text that nothing can be cut from, and what is wrong with it. -/
inductive Stuck (q : InputQueue) : List Char → ArithmeticError → Prop
  | missingInput {cs} (h : Number.readChars? (Text.trim q.next.1.toList) = none) :
      Stuck q ('?' :: cs) .missingInput
  | invalidNumber {cs word rest} (h : LongestWord cs word none rest) :
      Stuck q cs (.invalidNumber (String.ofList word))
  | invalidSymbol {c cs} (hblank : Text.isBlank c = false) (hmark : c ≠ '?')
      (h : ∀ {word t}, Word word t → ¬ word <+: c :: cs) :
      Stuck q (c :: cs) (.invalidSymbol c)

/-- Any number of cuts, with the tokens that they give. -/
inductive Cuts : InputQueue → List Char → List Token → InputQueue → List Char → Prop
  | here {q cs} : Cuts q cs [] q cs
  | cut {q cs t q' cs' ts q'' rest} (h : Cut q cs t q' cs') (hrest : Cuts q' cs' ts q'' rest) :
      Cuts q cs (t.toList ++ ts) q'' rest

variable {q q' q₁ q₂ : InputQueue} {cs rest rest₁ rest₂ : List Char} {t t₁ t₂ : Option Token}
  {ts ts₁ ts₂ : List Token} {err : ArithmeticError}

/-- What is cut off is a part of the text, and its placeholders are what takes values. -/
theorem Cut.split (h : Cut q cs t q' rest) :
    ∃ part, cs = part ++ rest ∧ q' = q.skip (part.count '?') := by
  cases h with
  | @blank c _ hblank =>
    refine ⟨[c], rfl, ?_⟩
    have hc : c ≠ '?' := by
      rintro rfl
      exact absurd hblank (by decide)
    rw [List.count_cons_of_ne hc]
    rfl
  | placeholder _ => exact ⟨['?'], rfl, rfl⟩
  | @word _ word _ _ hword =>
    refine ⟨word, hword.split, ?_⟩
    rw [List.count_eq_zero.mpr (hword.isWord.not_mem wordless_placeholder)]
    rfl

theorem Cuts.split (h : Cuts q cs ts q' rest) :
    ∃ before, cs = before ++ rest ∧ q' = q.skip (before.count '?') := by
  induction h with
  | here => exact ⟨[], rfl, rfl⟩
  | cut h _ ih =>
    obtain ⟨part, rfl, rfl⟩ := h.split
    obtain ⟨before, rfl, rfl⟩ := ih
    refine ⟨part ++ before, (List.append_assoc ..).symm, ?_⟩
    rw [List.count_append, InputQueue.skip_add]

/-! ### There is one way to cut -/

/-- From a text that is used up, nothing can be cut. -/
theorem not_cut_nil : ¬ Cut q [] t q' rest := by
  rintro (_ | _ | hword)
  obtain ⟨c, tail, rfl, -, -⟩ := hword.isWord.head
  cases hword.split

theorem Cut.unique (h₁ : Cut q cs t₁ q₁ rest₁) (h₂ : Cut q cs t₂ q₂ rest₂) :
    t₁ = t₂ ∧ q₁ = q₂ ∧ rest₁ = rest₂ := by
  cases h₁ with
  | blank hblank =>
    cases h₂ with
    | blank _ => exact ⟨rfl, rfl, rfl⟩
    | placeholder _ => exact absurd hblank (by decide)
    | word hword =>
      rw [hword.head.1] at hblank
      cases hblank
  | placeholder hread =>
    cases h₂ with
    | blank hblank => exact absurd hblank (by decide)
    | placeholder hread' =>
      rw [hread] at hread'
      cases hread'
      exact ⟨rfl, rfl, rfl⟩
    | word hword => exact absurd rfl hword.head.2
  | word hword =>
    cases h₂ with
    | blank hblank =>
      rw [hword.head.1] at hblank
      cases hblank
    | placeholder _ => exact absurd rfl hword.head.2
    | word hword' =>
      obtain ⟨-, ht, hrest⟩ := hword.unique hword'
      exact ⟨ht, rfl, hrest⟩

/-- Where a text is stuck, it cannot be cut. -/
theorem Stuck.not_cut (h : Stuck q cs err) : ¬ Cut q cs t q' rest := by
  intro hcut
  cases h with
  | missingInput hnone =>
    cases hcut with
    | blank hblank => exact absurd hblank (by decide)
    | placeholder hread =>
      rw [hnone] at hread
      cases hread
    | word hword => exact absurd rfl hword.head.2
  | invalidNumber hnone =>
    cases hcut with
    | blank hblank =>
      rw [hnone.head.1] at hblank
      cases hblank
    | placeholder _ => exact absurd rfl hnone.head.2
    | word hword => cases (hword.unique hnone).2.1
  | invalidSymbol hblank hmark hnone =>
    cases hcut with
    | blank hblank' =>
      rw [hblank] at hblank'
      cases hblank'
    | placeholder _ => exact hmark rfl
    | word hword => exact hnone hword.isWord (hword.split ▸ List.prefix_append ..)

/-- A text that is cut up gives the tokens of any other way to cut it up. -/
theorem Cuts.unique (h₁ : Cuts q cs ts₁ q₁ []) (h₂ : Cuts q cs ts₂ q₂ []) : ts₁ = ts₂ := by
  generalize hrest : ([] : List Char) = rest at h₁
  induction h₁ generalizing ts₂ with
  | here =>
    subst hrest
    cases h₂ with
    | here => rfl
    | cut h _ => exact absurd h not_cut_nil
  | cut h₁ _ ih =>
    cases h₂ with
    | here => exact absurd h₁ not_cut_nil
    | cut h₂ hrest₂ =>
      obtain ⟨rfl, rfl, rfl⟩ := h₁.unique h₂
      rw [ih hrest₂ hrest]

/-- A text on which one gets stuck cannot be cut up. -/
theorem Cuts.not_of_stuck (h₁ : Cuts q cs ts₁ q₁ rest₁) (hstuck : Stuck q₁ rest₁ err) :
    ¬ Cuts q cs ts₂ q₂ [] := by
  induction h₁ generalizing ts₂ with
  | here =>
    intro h₂
    cases h₂ with
    | here =>
      cases hstuck with
      | invalidNumber hword =>
        obtain ⟨c, tail, rfl, -, -⟩ := hword.isWord.head
        cases hword.split
    | cut h _ => exact hstuck.not_cut h
  | cut h₁ _ ih =>
    intro h₂
    cases h₂ with
    | here => exact not_cut_nil h₁
    | cut h₂ hrest₂ =>
      obtain ⟨rfl, rfl, rfl⟩ := h₁.unique h₂
      exact ih hstuck hrest₂

/-- An operator of two characters is one token. -/
theorem Cut.operator {op : Operator} (hop : op.symbol.length = 2)
    (h : Cut q (op.symbol ++ cs) t q' rest) : t = some (.operator op) ∧ rest = cs := by
  obtain ⟨a, b, hsymbol⟩ := List.length_eq_two.mp hop
  obtain ⟨hblank, hmark, hnumber, hname, hbracket⟩ := Operator.head hsymbol
  generalize htext : op.symbol ++ cs = text at h
  cases h with
  | blank hblank' =>
    rw [hsymbol] at htext
    cases htext
    rw [hblank] at hblank'
    cases hblank'
  | placeholder _ =>
    rw [hsymbol] at htext
    cases htext
    exact absurd rfl hmark
  | @word _ word token _ hword =>
    have hlong := hword.longest (.operator op) (htext ▸ List.prefix_append ..)
    have hsplit := htext.trans hword.split
    obtain ⟨c, tail, rfl, -, -⟩ := hword.isWord.head
    have hc : c = a := by
      rw [hsymbol] at hsplit
      exact (List.cons.inj hsplit).1.symm
    subst hc
    obtain ⟨op', hop', htoken⟩ := hword.isWord.of_neither hnumber hname hbracket
    have hshort := op'.length_symbol_le
    rw [hop'] at hshort
    obtain ⟨hsame, hrest⟩ := List.append_inj hsplit (by omega)
    obtain rfl := Operator.symbol_inj (hsame.trans hop'.symm)
    exact ⟨htoken, hrest.symm⟩

/-! ### Reading -/

/-- The first lexeme of a text is what can be cut from it. -/
theorem scan_cut (q : InputQueue) (c : Char) (cs : List Char) :
    match scan q c cs with
    | (.ok (lexeme, rest), after) => Cut q (c :: cs) lexeme.token after rest
    | (.error err, after) => Stuck q (c :: cs) err ∧ after = q.skip ([c].count '?') := by
  rw [scan]
  by_cases hblank : Text.isBlank c = true
  · rw [if_pos hblank]
    exact .blank hblank
  rw [if_neg hblank]
  by_cases hmark : c = '?'
  · subst hmark
    rw [if_pos rfl]
    dsimp only
    rcases hread : Number.readChars? (Text.trim q.next.1.toList) with _ | x
    · exact ⟨.missingInput hread, rfl⟩
    · exact .placeholder hread
  rw [if_neg hmark]
  have hkept : q = q.skip ([c].count '?') := by
    rw [List.count_cons_of_ne hmark]
    rfl
  by_cases hnumber : inNumber c = true
  · rw [if_pos hnumber]
    dsimp only
    have hrun : LongestWord (c :: cs) (c :: cs.takeWhile inNumber)
        ((Number.readChars? (c :: cs.takeWhile inNumber)).map .number)
        (cs.dropWhile inNumber) := by
      refine longestWord_run (.number ?_) fun hother => (hother.of_inNumber hnumber).1
      intro d hd
      rcases List.mem_cons.mp hd with rfl | hd
      · exact hnumber
      · exact List.mem_takeWhile_imp hd
    rcases hread : Number.readChars? (c :: cs.takeWhile inNumber) with _ | x
    · rw [hread] at hrun
      exact ⟨.invalidNumber hrun, hkept⟩
    · rw [hread] at hrun
      exact .word hrun
  rw [if_neg hnumber]
  rw [Bool.not_eq_true] at hnumber
  by_cases hname : Text.startsName c = true
  · rw [if_pos hname]
    refine .word (longestWord_run (.name hname ?_) fun hother => (hother.of_startsName hname).1)
    intro d hd
    exact List.mem_takeWhile_imp hd
  rw [if_neg hname]
  rw [Bool.not_eq_true] at hname
  have hsingle : ∀ {token : Token}, c = '(' ∨ c = ')' → Word [c] (some token) →
      Cut q (c :: cs) (some token) q cs :=
    fun hc hword => .word (longestWord_single hword fun hother => (hother.of_bracket hc).1)
  by_cases hopen : c = '('
  · subst hopen
    exact hsingle (.inl rfl) .openBracket
  rw [if_neg hopen]
  by_cases hclose : c = ')'
  · subst hclose
    exact hsingle (.inr rfl) .closeBracket
  rw [if_neg hclose]
  have hoperator : ∀ {word t}, Word word t → word <+: c :: cs →
      ∃ op : Operator, op.symbol = word := by
    intro word t hword hprefix
    obtain ⟨d, tail, rfl, -, -⟩ := hword.head
    obtain ⟨rfl, -⟩ := List.cons_prefix_cons.mp hprefix
    obtain ⟨op, hop, -⟩ := hword.of_neither hnumber hname (not_or.mpr ⟨hopen, hclose⟩)
    exact ⟨op, hop⟩
  rcases hread : Operator.read? (c :: cs) with _ | ⟨op, rest⟩
  · refine ⟨.invalidSymbol (Bool.not_eq_true _ ▸ hblank) hmark ?_, hkept⟩
    intro word t hword hprefix
    obtain ⟨op, rfl⟩ := hoperator hword hprefix
    exact Operator.read?_eq_none hread hprefix
  · refine .word ⟨.operator op, Operator.read?_append hread, ?_⟩
    intro other t' hother hprefix
    obtain ⟨op', rfl⟩ := hoperator hother hprefix
    exact Operator.read?_longest hread hprefix

/-- The lexemes of a text are what can be cut from it, up to its end or to where it is stuck. -/
theorem lexemes_cuts (q : InputQueue) (cs : List Char) :
    match lexemes q cs with
    | (.ok found, after) => Cuts q cs (found.filterMap Lexeme.token) after []
    | (.error err, after) => ∃ ts stop behind, Cuts q cs ts stop behind ∧ Stuck stop behind err ∧
        after = stop.skip ((behind.take 1).count '?') := by
  fun_induction lexemes q cs with
  | case1 q => exact .here
  | case2 q c cs e next hscan =>
    have hcut := scan_cut q c cs
    rw [hscan] at hcut
    exact ⟨[], q, c :: cs, .here, hcut.1, hcut.2⟩
  | case3 q c cs lexeme rest next hscan outcome queue hrest ih =>
    have hcut := scan_cut q c cs
    rw [hscan] at hcut
    rw [hrest] at ih
    rcases outcome with e | found
    · obtain ⟨ts, stop, behind, hcuts, hstuck, hafter⟩ := ih
      exact ⟨_, stop, behind, .cut hcut hcuts, hstuck, hafter⟩
    · show Cuts q (c :: cs) ((lexeme :: found).filterMap Lexeme.token) queue []
      have htokens : (lexeme :: found).filterMap Lexeme.token =
          lexeme.token.toList ++ found.filterMap Lexeme.token := by
        rcases htoken : lexeme.token with _ | token
        · rw [List.filterMap_cons_none htoken]
          rfl
        · rw [List.filterMap_cons_some htoken]
          rfl
      rw [htokens]
      exact .cut hcut ih

theorem tokens_ok {text : List Char} {reading : Reading} (h : tokens q text = (.ok reading, q')) :
    reading.display = filled q (Text.trim text) ∧ q' = q.skip (text.count '?') ∧
      Cuts q (Text.trim text) reading.tokens q' [] := by
  have hcuts := lexemes_cuts q (Text.trim text)
  rw [tokens] at h
  rcases hlexemes : lexemes q (Text.trim text) with ⟨err | found, after⟩
  · rw [hlexemes] at h
    cases h
  · rw [hlexemes] at h hcuts
    obtain ⟨hqueue, hshown⟩ := lexemes_ok hlexemes
    rw [count_trim] at hqueue
    dsimp only at h hcuts
    split at h
    · cases h
    · cases h
      exact ⟨hshown, hqueue, hcuts⟩

theorem tokens_error {text : List Char} (h : tokens q text = (.error err, q')) :
    ∃ ts before behind, Text.trim text = before ++ behind ∧
      Cuts q (Text.trim text) ts (q.skip (before.count '?')) behind ∧
      (Stuck (q.skip (before.count '?')) behind err ∨
        ts = [] ∧ behind = [] ∧ err = .emptyExpression) ∧
      q' = q.skip ((before ++ behind.take 1).count '?') := by
  have hcuts := lexemes_cuts q (Text.trim text)
  rw [tokens] at h
  rcases hlexemes : lexemes q (Text.trim text) with ⟨err' | found, after⟩
  · rw [hlexemes] at h hcuts
    cases h
    obtain ⟨ts, stop, behind, hcut, hstuck, hafter⟩ := hcuts
    obtain ⟨before, hsplit, rfl⟩ := hcut.split
    refine ⟨ts, before, behind, hsplit, hcut, .inl hstuck, ?_⟩
    rw [List.count_append, InputQueue.skip_add]
    exact hafter
  · rw [hlexemes] at h hcuts
    obtain ⟨hqueue, -⟩ := lexemes_ok hlexemes
    dsimp only at h hcuts
    split at h
    · next hempty =>
      cases h
      rw [List.isEmpty_iff.mp hempty] at hcuts
      refine ⟨[], Text.trim text, [], (List.append_nil _).symm, hqueue ▸ hcuts,
        .inr ⟨rfl, rfl, rfl⟩, ?_⟩
      rw [List.take_nil, List.append_nil]
      exact hqueue
    · cases h

/-- **Reading conserves the text and takes one value for each placeholder.**  A text that reads
is displayed with the next values in place of its placeholders, and with everything else as it
stands; it is read as the tokens that it can be cut into, which are the same however it is cut.
A text that does not read has been cut from the left up to a place where it is stuck, unless it
is blank altogether, and the values that were taken are those of its placeholders up to there.
Operators of two characters are not cut through. -/
theorem tokens_conserve (q : InputQueue) (text : List Char) :
    (match tokens q text with
    | (.ok reading, after) =>
      reading.display = filled q (Text.trim text) ∧ after = q.skip (text.count '?') ∧
        Cuts q (Text.trim text) reading.tokens after [] ∧
        ∀ ts last, Cuts q (Text.trim text) ts last [] → ts = reading.tokens
    | (.error err, after) =>
      ∃ ts before behind, Text.trim text = before ++ behind ∧
        Cuts q (Text.trim text) ts (q.skip (before.count '?')) behind ∧
        (Stuck (q.skip (before.count '?')) behind err ∨
          ts = [] ∧ behind = [] ∧ err = .emptyExpression) ∧
        after = q.skip ((before ++ behind.take 1).count '?') ∧
        ∀ ts last, Cuts q (Text.trim text) ts last [] → ts = []) ∧
    ∀ (op : Operator) (q q' : InputQueue) (cs rest : List Char) (t : Option Token),
      op.symbol.length = 2 → Cut q (op.symbol ++ cs) t q' rest →
      t = some (.operator op) ∧ rest = cs := by
  refine ⟨?_, fun op q q' cs rest t => Cut.operator⟩
  rcases h : tokens q text with ⟨err | reading, after⟩
  · obtain ⟨ts, before, behind, hsplit, hcut, hend, hafter⟩ := tokens_error h
    refine ⟨ts, before, behind, hsplit, hcut, hend, hafter, fun ts' last hcut' => ?_⟩
    rcases hend with hstuck | ⟨rfl, rfl, -⟩
    · exact absurd hcut' (hcut.not_of_stuck hstuck)
    · exact hcut'.unique hcut
  · obtain ⟨hdisplay, hafter, hcut⟩ := tokens_ok h
    exact ⟨hdisplay, hafter, hcut, fun ts last hcut' => hcut'.unique hcut⟩

end Arithmetic

end Worksheet
