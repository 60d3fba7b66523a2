/-
Expressions inside markup.

An expression is shown in a span, and its structured form in an attribute between single
quotation marks.  Escaping leaves the quotation marks alone: that the attribute ends where it
should rests on what can be read, since no lexeme and no number has one.

* `Number.not_mem_text` — the text of a number;
* `unescape_escape`, `mem_escape`, `entities_escape` — what escaping does;
* `Engine.Operation`, `Engine.after` — an engine after any calls;
* `Engine.quotable_after` — what is on display then;
* `readEquation?` — reading the span of an expression back;
* `Engine.rendered_delimited` — what the engine renders, and the spans made of it.
-/
import Worksheet.Proofs.Refusals
import Worksheet.Proofs.Tokenizing
import Worksheet.Sheet.Content

namespace Worksheet

/-! ### The text of a number -/

namespace Number

variable {d : Char}

theorem not_mem_digitChars (hd : Foreign d) (n : Nat) : d ∉ digitChars n := by
  intro hmem
  have hdigit := Nat.isDigit_of_mem_toDigits (by decide) (by decide) hmem
  rw [hd.digit] at hdigit
  cases hdigit

theorem not_mem_replicate_zero (hd : Foreign d) (n : Nat) : d ∉ List.replicate n '0' := by
  intro hmem
  obtain rfl := List.eq_of_mem_replicate hmem
  cases hd.digit

theorem not_mem_positional (hd : Foreign d) (x : Decimal) : d ∉ x.positional := by
  have hdigits := not_mem_digitChars hd x.digits
  have hzeros := not_mem_replicate_zero hd
  rw [Decimal.positional]
  split
  · rw [List.mem_append, not_or]
    exact ⟨hdigits, hzeros _⟩
  · dsimp only
    generalize hpadded : List.replicate _ '0' ++ digitChars x.digits = padded
    have hmem : d ∉ padded := by
      rw [← hpadded, List.mem_append, not_or]
      exact ⟨hzeros _, hdigits⟩
    have hwhole : ∀ n, d ∉ padded.take n := fun n h => hmem (List.mem_of_mem_take h)
    split
    · exact hwhole _
    · rw [List.mem_append, List.mem_cons, List.mem_reverse, not_or, not_or]
      refine ⟨hwhole _, ?_, ?_⟩
      · rintro rfl
        exact hd.mark (by decide)
      · intro h
        exact hmem (List.mem_of_mem_drop (List.mem_reverse.mp ((List.dropWhile_suffix _).subset h)))

theorem not_mem_signChars (hd : Foreign d) (negative : Bool) : d ∉ signChars negative := by
  cases negative with
  | false => exact List.not_mem_nil
  | true =>
    intro hmem
    rw [List.mem_singleton.mp hmem] at hd
    exact hd.mark (by decide)

/-- What stands in no number that can be read stands in no number that is written. -/
theorem not_mem_text (hd : Foreign d) (x : Float) : d ∉ (text x).toList := by
  have hletter := hd.letter
  rw [List.mem_append, not_or] at hletter
  rw [text]
  split
  · intro hmem
    exact hletter.2 (List.mem_map_of_mem (f := Char.toLower) hmem)
  · rw [String.toList_ofList, List.mem_append, not_or]
    refine ⟨not_mem_signChars hd _, ?_⟩
    intro hmem
    have hlower : d.toLower ∈ "inf".toList.map Char.toLower := List.mem_map_of_mem hmem
    have hsub : "inf".toList.map Char.toLower ⊆ "infinity".toList := by decide
    exact hletter.1 (hsub hlower)
  · rw [String.toList_ofList, List.mem_append, not_or]
    refine ⟨not_mem_signChars hd _, ?_⟩
    split
    · intro hmem
      rw [List.mem_singleton.mp hmem] at hd
      cases hd.digit
    · exact not_mem_positional hd _

end Number

namespace Arithmetic

namespace Engine

/-! ### Escaping -/

theorem escapeChar_cases (c : Char) :
    c = '&' ∧ escapeChar c = "&amp;".toList ∨ c = '<' ∧ escapeChar c = "&lt;".toList ∨
      c = '>' ∧ escapeChar c = "&gt;".toList ∨
        (c ≠ '&' ∧ c ≠ '<' ∧ c ≠ '>') ∧ escapeChar c = [c] := by
  unfold escapeChar
  split
  · exact .inl ⟨rfl, rfl⟩
  · exact .inr (.inl ⟨rfl, rfl⟩)
  · exact .inr (.inr (.inl ⟨rfl, rfl⟩))
  · next hamp hlt hgt => exact .inr (.inr (.inr ⟨⟨hamp, hlt, hgt⟩, rfl⟩))

/-- What an escaped text is made of. -/
theorem mem_escape {d : Char} {s : String} (h : d ∈ (escape s).toList) :
    (d ∈ s.toList ∧ d ≠ '<' ∧ d ≠ '>') ∨ d ∈ "&lt;&gt;&amp;".toList := by
  rw [escape, String.toList_ofList, List.mem_flatMap] at h
  obtain ⟨c, hc, hmem⟩ := h
  rcases escapeChar_cases c with ⟨-, hsame⟩ | ⟨-, hsame⟩ | ⟨-, hsame⟩ | ⟨⟨-, hlt, hgt⟩, hsame⟩
  · rw [hsame] at hmem
    exact .inr ((by decide : "&amp;".toList ⊆ "&lt;&gt;&amp;".toList) hmem)
  · rw [hsame] at hmem
    exact .inr ((by decide : "&lt;".toList ⊆ "&lt;&gt;&amp;".toList) hmem)
  · rw [hsame] at hmem
    exact .inr ((by decide : "&gt;".toList ⊆ "&lt;&gt;&amp;".toList) hmem)
  · rw [hsame] at hmem
    obtain rfl := List.mem_singleton.mp hmem
    exact .inl ⟨hc, hlt, hgt⟩

theorem not_mem_escape {d : Char} (hd : d = '<' ∨ d = '>') (s : String) :
    d ∉ (escape s).toList := by
  intro hmem
  rcases mem_escape hmem with ⟨-, hlt, hgt⟩ | hmem
  · exact hd.elim hlt hgt
  · rcases hd with rfl | rfl
    · exact absurd hmem (by decide)
    · exact absurd hmem (by decide)

/-- Escaping is replacing the three characters one after the other, the ampersand first. -/
theorem toList_escape (s : String) :
    (escape s).toList = Text.replaceChar '>' "&gt;".toList
      (Text.replaceChar '<' "&lt;".toList (Text.replaceChar '&' "&amp;".toList s.toList)) := by
  rw [escape, String.toList_ofList]
  induction s.toList with
  | nil => rfl
  | cons c cs ih =>
    rw [List.flatMap_cons, ih, ← List.singleton_append (x := c), Text.replaceChar_append,
      Text.replaceChar_append, Text.replaceChar_append]
    congr 1
    rcases escapeChar_cases c with ⟨rfl, -⟩ | ⟨rfl, -⟩ | ⟨rfl, -⟩ | ⟨⟨hamp, hlt, hgt⟩, hsame⟩
    · decide
    · decide
    · decide
    · have hkept : ∀ (d : Char) (substitute : List Char), c ≠ d →
          Text.replaceChar d substitute [c] = [c] := by
        intro d substitute hd
        rw [Text.replaceChar, List.flatMap_singleton, if_neg hd]
      rw [hsame, hkept _ _ hamp, hkept _ _ hlt, hkept _ _ hgt]

/-- Puts characters in the place of the entities that stand for them. -/
def unescape : List Char → List Char
  | '&' :: 'l' :: 't' :: ';' :: rest => '<' :: unescape rest
  | '&' :: 'g' :: 't' :: ';' :: rest => '>' :: unescape rest
  | '&' :: 'a' :: 'm' :: 'p' :: ';' :: rest => '&' :: unescape rest
  | c :: rest => c :: unescape rest
  | [] => []

theorem unescape_cons {c : Char} (hc : c ≠ '&') (cs : List Char) :
    unescape (c :: cs) = c :: unescape cs := by
  rw [unescape]
  · rintro _ rfl
    exact absurd rfl hc
  · rintro _ rfl
    exact absurd rfl hc
  · rintro _ rfl
    exact absurd rfl hc

/-- Nothing is lost by escaping. -/
theorem unescape_escape (s : String) : unescape (escape s).toList = s.toList := by
  rw [escape, String.toList_ofList]
  induction s.toList with
  | nil => rfl
  | cons c cs ih =>
    rw [List.flatMap_cons]
    rcases escapeChar_cases c with ⟨rfl, hsame⟩ | ⟨rfl, hsame⟩ | ⟨rfl, hsame⟩ |
      ⟨⟨hamp, -, -⟩, hsame⟩
    · exact congrArg _ ih
    · exact congrArg _ ih
    · exact congrArg _ ih
    · rw [hsame, List.singleton_append, unescape_cons hamp, ih]

/-- The names of the entities, with what ends them. -/
def entityNames : List String :=
  ["lt;", "gt;", "amp;"]

/-- Every ampersand of a text is the start of an entity. -/
def Entities (cs : List Char) : Prop :=
  ∀ behind, '&' :: behind <:+ cs → ∃ name ∈ entityNames, name.toList <+: behind

theorem entities_of_not_mem {cs : List Char} (h : '&' ∉ cs) : Entities cs :=
  fun _ hsuffix => absurd (hsuffix.subset (List.mem_cons_self ..)) h

theorem Entities.cons {c : Char} {cs : List Char} (hc : c ≠ '&') (h : Entities cs) :
    Entities (c :: cs) := by
  intro behind hsuffix
  rcases List.suffix_cons_iff.mp hsuffix with heq | hsuffix
  · exact absurd (List.cons.inj heq).1.symm hc
  · exact h behind hsuffix

/-- An entity in front of a text. -/
theorem Entities.entity {name : String} {cs : List Char} (hname : name ∈ entityNames)
    (h : Entities cs) : Entities ('&' :: (name.toList ++ cs)) := by
  have hbare : ∀ part : List Char, '&' ∉ part → Entities (part ++ cs) := by
    intro part hpart
    induction part with
    | nil => exact h
    | cons c part ih =>
      rw [List.mem_cons, not_or] at hpart
      exact .cons (Ne.symm hpart.1) (ih hpart.2)
  have hnames : ∀ name ∈ entityNames, '&' ∉ name.toList := by decide
  intro behind hsuffix
  rcases List.suffix_cons_iff.mp hsuffix with heq | hsuffix
  · obtain rfl := (List.cons.inj heq).2
    exact ⟨name, hname, List.prefix_append ..⟩
  · exact hbare _ (hnames name hname) behind hsuffix

/-- An escaped text in front of a text. -/
theorem entities_escape (s : String) {cs : List Char} (h : Entities cs) :
    Entities ((escape s).toList ++ cs) := by
  rw [escape, String.toList_ofList]
  induction s.toList with
  | nil => exact h
  | cons c rest ih =>
    rw [List.flatMap_cons, List.append_assoc]
    rcases escapeChar_cases c with ⟨-, hsame⟩ | ⟨-, hsame⟩ | ⟨-, hsame⟩ | ⟨⟨hamp, -, -⟩, hsame⟩
    · rw [hsame]
      exact .entity (by decide : "amp;" ∈ entityNames) ih
    · rw [hsame]
      exact .entity (by decide : "lt;" ∈ entityNames) ih
    · rw [hsame]
      exact .entity (by decide : "gt;" ∈ entityNames) ih
    · rw [hsame]
      exact .cons hamp ih

end Engine

/-! ### What is on display -/

/-- A character that is never on display: it is in no word and in no number, and it is no
blank. -/
structure Hidden (d : Char) : Prop where
  word : Wordless d
  blank : Text.isBlank d = false
  number : Number.Foreign d

instance (d : Char) : Decidable (Hidden d) :=
  decidable_of_iff (Wordless d ∧ Text.isBlank d = false ∧ Number.Foreign d)
    ⟨fun ⟨word, blank, number⟩ => ⟨word, blank, number⟩,
      fun ⟨word, blank, number⟩ => ⟨word, blank, number⟩⟩

/-- What is cut off is displayed without hidden characters. -/
theorem Hidden.of_cut {d : Char} (hd : Hidden d) {q q' : InputQueue} {cs rest : List Char}
    {t : Option Token} (h : Cut q cs t q' rest) :
    ∃ part, cs = part ++ rest ∧ q' = q.skip (part.count '?') ∧ d ∉ filled q part := by
  obtain ⟨part, hsplit, hqueue⟩ := h.split
  refine ⟨part, hsplit, hqueue, ?_⟩
  cases h with
  | @blank c _ hblank =>
    obtain rfl : [c] = part := List.append_cancel_right hsplit
    have hc : d ≠ c := by
      rintro rfl
      rw [hd.blank] at hblank
      cases hblank
    have hmark : '?' ∉ [c] := by
      intro hmem
      rw [← List.mem_singleton.mp hmem] at hblank
      exact absurd hblank (by decide)
    rw [filled_of_not_mem hmark]
    exact fun hmem => hc (List.mem_singleton.mp hmem)
  | placeholder hread =>
    obtain rfl : ['?'] = part := List.append_cancel_right hsplit
    rw [filled, if_pos rfl, filled, List.append_nil]
    exact Number.readChars?_not_mem hd.number hread
  | word hword =>
    obtain rfl := List.append_cancel_right (hword.split.symm.trans hsplit)
    rw [filled_of_not_mem (hword.isWord.not_mem wordless_placeholder)]
    exact hword.isWord.not_mem hd.word

theorem Hidden.of_cuts {d : Char} (hd : Hidden d) {q q' : InputQueue} {cs rest : List Char}
    {ts : List Token} (h : Cuts q cs ts q' rest) :
    ∃ before, cs = before ++ rest ∧ q' = q.skip (before.count '?') ∧ d ∉ filled q before := by
  induction h with
  | here => exact ⟨[], rfl, rfl, List.not_mem_nil⟩
  | cut h _ ih =>
    obtain ⟨part, rfl, rfl, hpart⟩ := hd.of_cut h
    obtain ⟨before, rfl, rfl, hbefore⟩ := ih
    refine ⟨part ++ before, (List.append_assoc ..).symm, ?_, ?_⟩
    · rw [List.count_append, InputQueue.skip_add]
    · rw [filled_append, List.mem_append, not_or]
      exact ⟨hpart, hbefore⟩

/-- An expression that reads is displayed without hidden characters, whatever the input values
are. -/
theorem Hidden.of_tokens {d : Char} (hd : Hidden d) {q q' : InputQueue} {text : List Char}
    {reading : Reading} (h : tokens q text = (.ok reading, q')) : d ∉ reading.display := by
  obtain ⟨hdisplay, -, hcuts⟩ := tokens_ok h
  obtain ⟨before, hsplit, -, hbefore⟩ := hd.of_cuts hcuts
  rw [hdisplay, hsplit, List.append_nil]
  exact hbefore

/-! ### An engine after any calls -/

namespace Engine

/-- The calls that change an engine. -/
inductive Operation where
  | parse (text : String) (inputs : InputQueue)
  | calculate
  | setVariable (name : String) (value : Float)
  | setAngleMode (mode : AngleMode)
  | setCalculating (calculating : Bool)
  | setPlotting (plotting : Bool)

/-- The engine after a call, whether the call succeeds or not. -/
def Operation.apply (e : Engine) : Operation → Engine
  | .parse text inputs => (MathEngine.parse text inputs e).1.engine
  | .calculate => (MathEngine.calculate e).engine
  | .setVariable name value => MathEngine.setVariable name value e
  | .setAngleMode mode => MathEngine.setAngleMode mode e
  | .setCalculating calculating => MathEngine.setCalculating calculating e
  | .setPlotting plotting => MathEngine.setPlotting plotting e

/-- A new engine after some calls. -/
def after (ops : List Operation) : Engine :=
  ops.foldl Operation.apply initial

theorem after_concat (ops : List Operation) (op : Operation) :
    after (ops ++ [op]) = op.apply (after ops) := by
  rw [after, List.foldl_append]
  rfl

/-- No hidden character is on display. -/
def Quotable (e : Engine) : Prop :=
  ∀ d, Hidden d → d ∉ e.display.toList

theorem display_calculate (e : Engine) : (e.calculate).2.display = e.display := by
  rw [calculate]
  split
  · rfl
  · split
    · rfl
    · rfl

theorem quotable_parse {e : Engine} (h : e.Quotable) (text : String) (inputs : InputQueue) :
    (e.parse text inputs).2.1.Quotable := by
  unfold parse read
  rcases htokens : tokens inputs text.toList with ⟨err | reading, last⟩
  · exact h
  · dsimp only
    rcases Expr.ofTokens (String.ofList reading.display) reading.tokens with err | expr
    · exact h
    · intro d hd
      show d ∉ (String.ofList reading.display).toList
      rw [String.toList_ofList]
      exact hd.of_tokens htokens

theorem Operation.quotable_apply {e : Engine} (h : e.Quotable) (op : Operation) :
    (op.apply e).Quotable := by
  cases op with
  | parse text inputs => exact quotable_parse h text inputs
  | calculate =>
    intro d hd
    show d ∉ (e.calculate).2.display.toList
    rw [display_calculate]
    exact h d hd
  | setVariable name value => exact h
  | setAngleMode mode => exact h
  | setCalculating calculating => exact h
  | setPlotting plotting => exact h

theorem quotable_after (ops : List Operation) : (after ops).Quotable :=
  List.foldlRecOn (motive := Quotable) ops Operation.apply (fun _ _ => List.not_mem_nil)
    fun _ h op _ => op.quotable_apply h

end Engine

end Arithmetic

/-! ### Spans -/

/-- Reads the attribute with the structured form of an expression, up to the next single
quotation mark. -/
def readStructured? (cs : List Char) : Option (List Char × List Char) :=
  (Text.stripPrefix? " data-xml='".toList cs).bind fun rest =>
    (Text.stripPrefix? ['\''] (rest.dropWhile (· != '\''))).map
      (rest.takeWhile (· != '\''), ·)

/-- Reads the span of an expression: the structured form, if there is one, the text up to the
next tag, and what follows the span. -/
def readEquation? (cs : List Char) : Option (Option (List Char) × List Char × List Char) :=
  (Text.stripPrefix? "<span class=\"eq\"".toList cs).bind fun rest =>
    let (xml, rest) :=
      match readStructured? rest with
      | some (xml, rest) => (some xml, rest)
      | none => (none, rest)
    (Text.stripPrefix? ['>'] rest).bind fun rest =>
      (Text.stripPrefix? "</span>".toList (rest.dropWhile (· != '<'))).map
        (xml, rest.takeWhile (· != '<'), ·)

/-- A text up to the first place of a character that it does not have itself. -/
theorem takeWhile_dropWhile_ne {c : Char} {cs : List Char} (h : c ∉ cs) (rest : List Char) :
    (cs ++ c :: rest).takeWhile (· != c) = cs ∧
      (cs ++ c :: rest).dropWhile (· != c) = c :: rest := by
  have hne : ∀ d ∈ cs, (d != c) = true := by
    intro d hd
    rw [bne_iff_ne]
    rintro rfl
    exact h hd
  rw [List.takeWhile_append_of_pos hne, List.dropWhile_append_of_pos hne]
  simp

/-- A span is read back if the structured form has no quotation mark and the text no tag. -/
theorem readEquation?_html {html : String} {xml : Option String} (hhtml : '<' ∉ html.toList)
    (hxml : ∀ x ∈ xml, '\'' ∉ x.toList) (rest : List Char) :
    readEquation? ((Piece.equation html xml).html.toList ++ rest) =
      some (xml.map String.toList, html.toList, rest) := by
  have hstrip : ∀ part rest : List Char, Text.stripPrefix? part (part ++ rest) = some rest :=
    fun part rest => (Text.stripPrefix?_eq_some_iff ..).mpr rfl
  obtain ⟨htext, hend⟩ := takeWhile_dropWhile_ne hhtml ("/span>".toList ++ rest)
  have hclose : '<' :: ("/span>".toList ++ rest) = "</span>".toList ++ rest := rfl
  rw [hclose] at htext hend
  rcases xml with _ | xml
  · have hsplit : (Piece.equation html none).html.toList ++ rest =
        "<span class=\"eq\"".toList ++ (['>'] ++ (html.toList ++ ("</span>".toList ++ rest))) := by
      have hopen : "<span class=\"eq\">".toList = "<span class=\"eq\"".toList ++ ['>'] := rfl
      show ("<span class=\"eq\">" ++ html ++ "</span>").toList ++ rest = _
      rw [String.toList_append, String.toList_append, hopen]
      simp only [List.append_assoc]
    have hnone : readStructured? (['>'] ++ (html.toList ++ ("</span>".toList ++ rest))) = none := by
      have hattribute : " data-xml='".toList = ' ' :: "data-xml='".toList := rfl
      rw [readStructured?, hattribute, List.singleton_append, Text.stripPrefix?,
        if_neg (by decide), Option.bind_none]
    rw [hsplit, readEquation?, hstrip, Option.bind_some, hnone]
    dsimp only
    rw [hstrip, Option.bind_some, hend, hstrip, htext]
    rfl
  · have hquote : '\'' ∉ xml.toList := hxml xml rfl
    have hsplit : (Piece.equation html (some xml)).html.toList ++ rest =
        "<span class=\"eq\"".toList ++ (" data-xml='".toList ++ (xml.toList ++ '\'' ::
          (['>'] ++ (html.toList ++ ("</span>".toList ++ rest))))) := by
      have hopen : "<span class=\"eq\" data-xml='".toList =
          "<span class=\"eq\"".toList ++ " data-xml='".toList := rfl
      have hend : "'>".toList = '\'' :: ['>'] := rfl
      show ("<span class=\"eq\" data-xml='" ++ xml ++ "'>" ++ html ++ "</span>").toList ++ rest = _
      rw [String.toList_append, String.toList_append, String.toList_append, String.toList_append,
        hopen, hend]
      simp only [List.append_assoc, List.cons_append]
    obtain ⟨hvalue, hbehind⟩ := takeWhile_dropWhile_ne hquote
      (['>'] ++ (html.toList ++ ("</span>".toList ++ rest)))
    have hsome : readStructured? (" data-xml='".toList ++ (xml.toList ++ '\'' ::
        (['>'] ++ (html.toList ++ ("</span>".toList ++ rest))))) =
          some (xml.toList, ['>'] ++ (html.toList ++ ("</span>".toList ++ rest))) := by
      rw [readStructured?, hstrip, Option.bind_some, hbehind, hvalue]
      rfl
    rw [hsplit, readEquation?, hstrip, Option.bind_some, hsome]
    dsimp only
    rw [hstrip, Option.bind_some, hend, hstrip, htext]
    rfl

/-! ### What an engine renders -/

namespace Arithmetic.Engine

/-- The expression, and its result if it was calculated. -/
theorem toList_html (e : Engine) :
    (MathEngine.html e).toList = (escape e.display).toList ++
      if e.calculated then " = ".toList ++ (Number.text e.value).toList else [] := by
  show e.html.toList = _
  rw [html]
  split
  · rw [String.toList_append, String.toList_append, List.append_assoc]
  · rw [List.append_nil]

/-- The result has no character that stands in no number, but for the equals sign. -/
theorem not_mem_result {d : Char} (hd : Number.Foreign d) (hequals : d ∉ " = ".toList)
    (e : Engine) :
    d ∉ if e.calculated then " = ".toList ++ (Number.text e.value).toList else [] := by
  split
  · rw [List.mem_append, not_or]
    exact ⟨hequals, Number.not_mem_text hd e.value⟩
  · exact List.not_mem_nil

/-- What markup or a quotation could be broken with is not in an escaped text on display. -/
theorem Quotable.not_mem_escape {e : Engine} (h : e.Quotable) :
    ∀ d ∈ ['<', '>', '\'', '"'], d ∉ (escape e.display).toList := by
  have hquote : ∀ d, Hidden d → d ∉ "&lt;&gt;&amp;".toList → d ∉ (escape e.display).toList := by
    intro d hd hentity hmem
    rcases mem_escape hmem with ⟨hdisplay, -⟩ | hmem
    · exact h d hd hdisplay
    · exact hentity hmem
  intro d hd
  simp only [List.mem_cons, List.not_mem_nil, or_false] at hd
  rcases hd with rfl | rfl | rfl | rfl
  · exact Engine.not_mem_escape (.inl rfl) _
  · exact Engine.not_mem_escape (.inr rfl) _
  · exact hquote _ (by decide) (by decide)
  · exact hquote _ (by decide) (by decide)

theorem Quotable.not_mem_html {e : Engine} (h : e.Quotable) :
    ∀ d ∈ ['<', '>', '\'', '"'], d ∉ (MathEngine.html e).toList := by
  intro d hd
  rw [toList_html, List.mem_append, not_or]
  refine ⟨h.not_mem_escape d hd, ?_⟩
  simp only [List.mem_cons, List.not_mem_nil, or_false] at hd
  rcases hd with rfl | rfl | rfl | rfl
  · exact not_mem_result (by decide) (by decide) e
  · exact not_mem_result (by decide) (by decide) e
  · exact not_mem_result (by decide) (by decide) e
  · exact not_mem_result (by decide) (by decide) e

/-- The tags of the structured form have no quotation mark. -/
theorem Quotable.not_mem_xml {e : Engine} (h : e.Quotable) :
    '\'' ∉ (MathEngine.xml e).toList ∧ '"' ∉ (MathEngine.xml e).toList := by
  have hbetween : ∀ d, d ∉ "<math>".toList → d ∉ "</math>".toList →
      d ∈ ['<', '>', '\'', '"'] → d ∉ (MathEngine.xml e).toList := by
    intro d hopen hclose hd
    show d ∉ ("<math>" ++ escape e.display ++ "</math>").toList
    rw [String.toList_append, String.toList_append, List.mem_append, List.mem_append, not_or,
      not_or]
    exact ⟨⟨hopen, h.not_mem_escape d hd⟩, hclose⟩
  exact ⟨hbetween _ (by decide) (by decide) (by decide),
    hbetween _ (by decide) (by decide) (by decide)⟩

theorem entities_html (e : Engine) : Entities (MathEngine.html e).toList := by
  rw [toList_html]
  exact entities_escape _ (entities_of_not_mem (not_mem_result (by decide) (by decide) e))

end Arithmetic.Engine

namespace Page

variable {σ ρ : Type} [MathEngine σ]

/-- Equations in some pieces show what an engine renders. -/
def Rendered (e : σ) (pieces : List Piece) : Prop :=
  ∀ html xml, Piece.equation html xml ∈ pieces →
    html = MathEngine.html e ∧ ∀ x ∈ xml, x = MathEngine.xml e

theorem rendered_showExpression (shows calculate : Bool) (p : Page σ ρ) :
    ∃ pieces, (p.showExpression shows calculate).2.output.toList = p.output.toList ++ pieces ∧
      Rendered p.engine pieces := by
  have hnothing : Rendered p.engine [] := fun _ _ hmem => absurd hmem List.not_mem_nil
  rw [showExpression]
  split
  · rcases hpiece : p.expressionPiece calculate with err | piece
    · exact ⟨[], (List.append_nil _).symm, hnothing⟩
    · refine ⟨[piece], output_write .., ?_⟩
      intro html xml hmem
      obtain rfl := List.mem_singleton.mp hmem
      rw [expressionPiece] at hpiece
      split at hpiece
      · rcases htext : MathEngine.resultText p.settings.decimals p.engine with err | text
        · rw [htext] at hpiece
          cases hpiece
        · rw [htext] at hpiece
          cases hpiece
      · cases hpiece
        refine ⟨rfl, ?_⟩
        intro x hx
        split at hx
        · exact (Option.mem_some_iff.mp hx).symm
        · cases hx
  · exact ⟨[], (List.append_nil _).symm, hnothing⟩

theorem engine_showExpression (shows calculate : Bool) (p : Page σ ρ) :
    (p.showExpression shows calculate).2.engine = p.engine := by
  rw [showExpression]
  split
  · split
    · rfl
    · rfl
  · rfl

/-- An expression is read and perhaps calculated, and is then shown, unless one of these fails. -/
theorem exists_expression (v : Visit) (shows isCondition : Bool) (text : String) (p : Page σ ρ) :
    ∃ q, (q = (p.parse text).2 ∨ q = (p.parse text).2.calculate.2) ∧
      ((p.expression v shows isCondition text).2 = q ∨
        (p.expression v shows isCondition text).2 = (q.showExpression shows v.calculate).2) := by
  rw [expression]
  rcases p.parse text with ⟨err | _, q⟩
  · exact ⟨q, .inl rfl, .inl rfl⟩
  dsimp only
  split
  · rcases q.calculate with ⟨err | _, r⟩
    · exact ⟨r, .inr rfl, .inl rfl⟩
    · exact ⟨r, .inr rfl, .inr rfl⟩
  · exact ⟨q, .inl rfl, .inr rfl⟩

/-- An expression writes what the engine renders once it has read and calculated. -/
theorem rendered_expression (v : Visit) (shows isCondition : Bool) (text : String)
    (p : Page σ ρ) :
    ∃ pieces,
      (p.expression v shows isCondition text).2.output.toList = p.output.toList ++ pieces ∧
        Rendered (p.expression v shows isCondition text).2.engine pieces := by
  obtain ⟨q, hq, hexpression⟩ := exists_expression v shows isCondition text p
  have houtput : q.output = p.output := by
    rcases hq with rfl | rfl
    · rfl
    · rfl
  rcases hexpression with hexpression | hexpression
  · rw [hexpression, houtput]
    exact ⟨[], (List.append_nil _).symm, fun _ _ hmem => absurd hmem List.not_mem_nil⟩
  · rw [hexpression, ← houtput, engine_showExpression]
    exact rendered_showExpression shows v.calculate q

end Page

namespace Arithmetic.Engine

/-- What an expression leaves of an engine is what some calls leave of it. -/
theorem after_expression {ρ : Type} {ops : List Operation} {p : Page Engine ρ}
    (h : p.engine = after ops) (v : Visit) (shows isCondition : Bool) (text : String) :
    ∃ ops, (p.expression v shows isCondition text).2.engine = after ops := by
  obtain ⟨q, hq, hexpression⟩ := Page.exists_expression v shows isCondition text p
  have hparse : (p.parse text).2.engine = after (ops ++ [.parse text p.inputs]) := by
    rw [after_concat, ← h]
    rfl
  have hengine : ∃ ops, q.engine = after ops := by
    rcases hq with rfl | rfl
    · exact ⟨_, hparse⟩
    · refine ⟨ops ++ [.parse text p.inputs] ++ [.calculate], ?_⟩
      rw [after_concat, ← hparse]
      rfl
  rcases hexpression with hexpression | hexpression
  · rwa [hexpression]
  · rwa [hexpression, Page.engine_showExpression]

/-- **What is rendered breaks out of no markup and no quotation**, after any calls, whatever the
texts, the input values and the variables.  Every ampersand starts an entity, and the text on
display is got back from its escaped form, which only the result follows.  So the spans that are
written of the expressions of a sheet are read back as what was rendered. -/
theorem rendered_delimited (ops : List Operation) :
    let e := after ops
    (∀ d ∈ ['<', '>', '\'', '"'], d ∉ (MathEngine.html e).toList) ∧
    (∀ behind, '&' :: behind <:+ (MathEngine.html e).toList →
      ∃ name ∈ entityNames, name.toList <+: behind) ∧
    (∃ shown, unescape shown = e.display.toList ∧ (MathEngine.html e).toList = shown ++
      if e.calculated then " = ".toList ++ (Number.text e.value).toList else []) ∧
    (∃ inner : String, MathEngine.xml e = "<math>" ++ inner ++ "</math>" ∧
      ∀ d ∈ ['<', '>', '\'', '"'], d ∉ inner.toList) ∧
    ∀ {ρ : Type} (p : Page Engine ρ) (v : Visit) (shows isCondition : Bool) (text : String),
      p.engine = e → ∃ pieces,
        (p.expression v shows isCondition text).2.output.toList = p.output.toList ++ pieces ∧
        ∀ html xml, Piece.equation html xml ∈ pieces → ∀ rest,
          readEquation? ((Piece.equation html xml).html.toList ++ rest) =
            some (xml.map String.toList, html.toList, rest) := by
  intro e
  have hquotable : e.Quotable := quotable_after ops
  refine ⟨hquotable.not_mem_html, entities_html e,
    ⟨_, unescape_escape e.display, toList_html e⟩,
    ⟨escape e.display, rfl, hquotable.not_mem_escape⟩, ?_⟩
  intro ρ p v shows isCondition text hp
  obtain ⟨pieces, houtput, hrendered⟩ := Page.rendered_expression v shows isCondition text p
  obtain ⟨ops', hafter⟩ := after_expression hp v shows isCondition text
  refine ⟨pieces, houtput, fun html xml hmem rest => ?_⟩
  obtain ⟨rfl, hxml⟩ := hrendered html xml hmem
  rw [hafter] at hxml ⊢
  have hquotable' := quotable_after ops'
  refine readEquation?_html (hquotable'.not_mem_html '<' (by decide)) ?_ rest
  intro x hx
  rw [hxml x hx]
  exact hquotable'.not_mem_xml.1

end Arithmetic.Engine

end Worksheet
