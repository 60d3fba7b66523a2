/-
Where an attribute goes in an opening tag.

An opening tag is made up of its name, its attributes and its end, which may have a slash in it.
The end of a tag is taken to be the first `>` of the fragment.  That is right for a tag whose
values are free of that character, and then the attribute goes behind the last one that is there,
before a slash of the tag.  A value in quotes may hold a `>`, and the attribute goes into the
first value that does.

* `Markup.OpeningTag` — opening tags, with blanks, values and slashes wherever they may be;
* `Markup.insertInTag_concat` — where an attribute goes in a tag without its closing bracket;
* `Markup.withAttribute_openingTag` — where it goes in a fragment that starts with a tag.
-/
import Worksheet.Markup
import Worksheet.Text.Blank
import Mathlib.Data.List.Basic

namespace Worksheet.Markup

/-! ### Opening tags -/

/-- Blanks, or nothing. -/
structure Gap where
  chars : List Char
  blank : ∀ c ∈ chars, Text.isBlank c = true

/-- Whether a name goes on with a character. -/
def isNameChar (c : Char) : Bool :=
  !Text.isBlank c && c != '/' && c != '>'

/-- The name of an attribute, which ends where a value could start. -/
structure Name where
  chars : List Char
  nonempty : chars ≠ []
  plain : ∀ c ∈ chars, isNameChar c = true ∧ c ≠ '=' ∧ c ≠ '"' ∧ c ≠ '\''

/-- A value in quotes: whatever the quote does not occur in. -/
structure QuotedValue where
  quote : Char
  isQuote : quote = '"' ∨ quote = '\''
  chars : List Char
  unclosed : quote ∉ chars

/-- A value without quotes.  It ends at a blank or at the end of the tag, and a slash that comes
last is not part of it but of that end. -/
structure BareValue where
  chars : List Char
  plain : ∀ c ∈ chars, Text.isBlank c = false ∧ c ≠ '>'
  nonempty : chars ≠ []
  unquoted : chars.head? ≠ some '"' ∧ chars.head? ≠ some '\''
  unslashed : chars.getLast? ≠ some '/'

/-- What follows the name of an attribute. -/
inductive Value where
  | missing
  | quoted (before after : Gap) (value : QuotedValue)
  | bare (before after : Gap) (value : BareValue)

namespace Value

/-- What stands before the value proper. -/
def opened : Value → List Char
  | .missing => []
  | .quoted before after value => before.chars ++ '=' :: (after.chars ++ [value.quote])
  | .bare before after _ => before.chars ++ '=' :: after.chars

/-- The value proper. -/
def held : Value → List Char
  | .missing => []
  | .quoted _ _ value => value.chars
  | .bare _ _ value => value.chars

/-- What stands after the value proper. -/
def closed : Value → List Char
  | .quoted _ _ value => [value.quote]
  | _ => []

def chars (v : Value) : List Char :=
  v.opened ++ v.held ++ v.closed

end Value

/-- An attribute, with the blanks that part it from what comes before. -/
structure Attribute where
  gap : Gap
  parted : gap.chars ≠ []
  name : Name
  value : Value

namespace Attribute

/-- What stands before the value proper. -/
def opened (a : Attribute) : List Char :=
  a.gap.chars ++ a.name.chars ++ a.value.opened

def chars (a : Attribute) : List Char :=
  a.opened ++ a.value.held ++ a.value.closed

/-- No `>` stands in the value. -/
def Clear (a : Attribute) : Prop :=
  '>' ∉ a.value.held

end Attribute

/-- An opening tag. -/
structure OpeningTag where
  letter : Char
  isLetter : letter.isAlpha = true
  name : List Char
  plain : ∀ c ∈ name, isNameChar c = true
  attributes : List Attribute
  blanks : Gap
  selfClosing : Bool

namespace OpeningTag

/-- The tag up to its attributes. -/
def head (tag : OpeningTag) : List Char :=
  '<' :: tag.letter :: tag.name

/-- The tag with its attributes, up to the blanks at its end. -/
def opened (tag : OpeningTag) : List Char :=
  tag.head ++ tag.attributes.flatMap Attribute.chars

/-- The slash of a tag that closes itself. -/
def slash (tag : OpeningTag) : List Char :=
  if tag.selfClosing then ['/'] else []

/-- The end of the tag. -/
def closing (tag : OpeningTag) : List Char :=
  tag.slash ++ ['>']

def chars (tag : OpeningTag) : List Char :=
  tag.opened ++ tag.blanks.chars ++ tag.closing

def text (tag : OpeningTag) : String :=
  .ofList tag.chars

end OpeningTag

/-! ### A tag without its closing bracket -/

/-- Only a slash that ends the tag, blanks aside, stays behind the attribute. -/
theorem insertInTag_concat {c : Char} (hc : c ≠ ' ') {spaces : List Char}
    (hspaces : ∀ s ∈ spaces, s = ' ') (attr core : List Char) :
    insertInTag attr (core ++ c :: spaces) =
      if c = '/' then core ++ attr ++ c :: spaces else core ++ c :: spaces ++ attr := by
  have hrev : (core ++ c :: spaces).reverse = spaces.reverse ++ c :: core.reverse := by simp
  have hall : ∀ s ∈ spaces.reverse, (s == ' ') = true := by
    intro s hs
    exact beq_iff_eq.mpr (hspaces s (List.mem_reverse.mp hs))
  have hstop : (c == ' ') = false := beq_eq_false_iff_ne.mpr hc
  have htake : (spaces.reverse ++ c :: core.reverse).takeWhile (· == ' ') = spaces.reverse := by
    rw [List.takeWhile_append_of_pos hall, List.takeWhile_cons, hstop]
    exact List.append_nil _
  have hdrop : (spaces.reverse ++ c :: core.reverse).dropWhile (· == ' ') =
      c :: core.reverse := by
    rw [List.dropWhile_append_of_pos hall, List.dropWhile_cons, hstop]
    rfl
  rw [insertInTag]
  simp only [hrev, htake, hdrop, List.reverse_reverse, List.reverse_cons, List.getLast?_concat,
    List.dropLast_concat, Option.some.injEq]
  split
  · next hslash => rw [hslash]
  · rfl

/-- Text is made up of spaces, or there is a last character that is none. -/
theorem exists_last_of_not_spaces (cs : List Char) :
    (∀ s ∈ cs, s = ' ') ∨
      ∃ core c spaces, cs = core ++ c :: spaces ∧ c ≠ ' ' ∧ ∀ s ∈ spaces, s = ' ' := by
  induction cs with
  | nil => exact .inl nofun
  | cons d cs ih =>
    rcases ih with hspaces | ⟨core, c, spaces, rfl, hc, hspaces⟩
    · by_cases hd : d = ' '
      · exact .inl (List.forall_mem_cons.mpr ⟨hd, hspaces⟩)
      · exact .inr ⟨[], d, cs, rfl, hd, hspaces⟩
    · exact .inr ⟨d :: core, c, spaces, rfl, hc, hspaces⟩

theorem ne_space_of_not_blank {c : Char} (h : Text.isBlank c = false) : c ≠ ' ' := by
  rintro rfl
  exact absurd h (by decide)

/-- Whether a tag could not be taken to end before its last character. -/
def Solid (tag : List Char) : Prop :=
  ∃ core c, tag = core ++ [c] ∧ c ≠ ' ' ∧ c ≠ '/'

theorem Solid.append {tag : List Char} (h : Solid tag) (before : List Char) :
    Solid (before ++ tag) := by
  obtain ⟨core, c, rfl, hc⟩ := h
  exact ⟨before ++ core, c, by rw [List.append_assoc], hc⟩

theorem solid_of_not_blank {tag : List Char} (hne : tag ≠ [])
    (hblank : ∀ c ∈ tag, Text.isBlank c = false) (hslash : tag.getLast? ≠ some '/') :
    Solid tag := by
  rcases List.eq_nil_or_concat tag with h | ⟨core, c, rfl⟩
  · exact absurd h hne
  rw [List.concat_eq_append] at hblank hslash ⊢
  refine ⟨core, c, rfl, ne_space_of_not_blank (hblank c (by simp)), fun hc => hslash ?_⟩
  rw [hc, List.getLast?_concat]

/-- The attribute goes behind a solid part of a tag, and only a slash stays behind it. -/
theorem Solid.insertInTag {tag : List Char} (h : Solid tag) (attr more : List Char) :
    ∃ before after, more = before ++ after ∧ (after = [] ∨ after.head? = some '/') ∧
      insertInTag attr (tag ++ more) = tag ++ before ++ attr ++ after := by
  obtain ⟨core, c, rfl, hc, hslash⟩ := h
  rcases exists_last_of_not_spaces more with hspaces | ⟨inner, d, spaces, rfl, hd, hspaces⟩
  · refine ⟨more, [], by simp, .inl rfl, ?_⟩
    have hinsert := insertInTag_concat hc hspaces attr core
    rw [if_neg hslash] at hinsert
    simpa using hinsert
  · have hinsert := insertInTag_concat hd hspaces attr (core ++ c :: inner)
    by_cases hd' : d = '/'
    · rw [if_pos hd'] at hinsert
      exact ⟨inner, d :: spaces, rfl, .inr (by rw [hd']; rfl), by simpa using hinsert⟩
    · rw [if_neg hd'] at hinsert
      exact ⟨inner ++ d :: spaces, [], by simp, .inl rfl, by simpa using hinsert⟩

/-! ### What the parts of a tag are free of -/

theorem isNameChar_iff {c : Char} :
    isNameChar c = true ↔ Text.isBlank c = false ∧ c ≠ '/' ∧ c ≠ '>' := by
  simp [isNameChar, and_assoc]

theorem not_blank_of_isAlpha {c : Char} (h : c.isAlpha = true) : Text.isBlank c = false := by
  have hrange : (65 ≤ c.toNat ∧ c.toNat ≤ 90) ∨ (97 ≤ c.toNat ∧ c.toNat ≤ 122) := by
    have hcase : (decide (c.val ≥ 'A'.val ∧ c.val ≤ 'Z'.val) ||
        (decide (c.val ≥ 'a'.val) && decide (c.val ≤ 'z'.val))) = true := h
    simpa [UInt32.le_iff_toNat_le] using hcase
  simp only [Text.isBlank, Bool.or_eq_false_iff, Bool.and_eq_false_iff, decide_eq_false_iff_not,
    beq_eq_false_iff_ne]
  omega

theorem Gap.not_mem {c : Char} (hc : Text.isBlank c = false) (g : Gap) : c ∉ g.chars := by
  intro hmem
  rw [g.blank c hmem] at hc
  cases hc

theorem QuotedValue.quote_ne (v : QuotedValue) :
    v.quote ≠ ' ' ∧ v.quote ≠ '/' ∧ v.quote ≠ '>' := by
  rcases v.isQuote with h | h <;> rw [h] <;> decide

namespace Attribute

theorem opened_free (a : Attribute) : '>' ∉ a.opened := by
  have hgap : ∀ g : Gap, '>' ∉ g.chars := Gap.not_mem (by decide)
  have hname : '>' ∉ a.name.chars :=
    fun hmem => (isNameChar_iff.mp (a.name.plain _ hmem).1).2.2 rfl
  have hvalue : '>' ∉ a.value.opened := by
    rcases a.value with _ | ⟨before, after, v⟩ | ⟨before, after, v⟩
    · exact List.not_mem_nil
    · simp [Value.opened, hgap, v.quote_ne.2.2.symm]
    · simp [Value.opened, hgap]
  simp [opened, hname, hvalue, hgap]

theorem closed_free (a : Attribute) : '>' ∉ a.value.closed := by
  rcases a.value with _ | ⟨before, after, v⟩ | ⟨before, after, v⟩
  · exact List.not_mem_nil
  · simp [Value.closed, v.quote_ne.2.2.symm]
  · exact List.not_mem_nil

theorem Clear.free {a : Attribute} (h : a.Clear) : '>' ∉ a.chars := by
  rw [chars, List.mem_append, List.mem_append]
  rintro ((hmem | hmem) | hmem)
  · exact a.opened_free hmem
  · exact h hmem
  · exact a.closed_free hmem

theorem flatMap_chars_free {attributes : List Attribute} (h : ∀ a ∈ attributes, a.Clear) :
    '>' ∉ attributes.flatMap chars := by
  intro hmem
  obtain ⟨a, ha, hmem⟩ := List.mem_flatMap.mp hmem
  exact (h a ha).free hmem

/-- Only a value in quotes can hold a `>`. -/
theorem quoted_of_not_clear {a : Attribute} (h : ¬ a.Clear) :
    ∃ before after v, a.value = .quoted before after v := by
  obtain ⟨gap, parted, name, value⟩ := a
  rcases value with _ | ⟨before, after, v⟩ | ⟨before, after, v⟩
  · exact absurd List.not_mem_nil h
  · exact ⟨before, after, v, rfl⟩
  · exact absurd (fun hmem => (v.plain _ hmem).2 rfl) h

theorem solid_opened {a : Attribute} {before after : Gap} {v : QuotedValue}
    (h : a.value = .quoted before after v) : Solid a.opened := by
  have hquote : Solid [v.quote] := ⟨[], v.quote, rfl, v.quote_ne.1, v.quote_ne.2.1⟩
  have hopened : a.opened =
      (a.gap.chars ++ a.name.chars ++ before.chars ++ '=' :: after.chars) ++ [v.quote] := by
    simp [opened, h, Value.opened]
  rw [hopened]
  exact hquote.append _

/-- An attribute ends in a character of its name, in one of its value or in a quote. -/
theorem solid (a : Attribute) : Solid a.chars := by
  obtain ⟨gap, parted, name, value⟩ := a
  rcases value with _ | ⟨before, after, v⟩ | ⟨before, after, v⟩
  · have hname : Solid name.chars := by
      refine solid_of_not_blank name.nonempty (fun c hc => ?_) fun hlast => ?_
      · exact (isNameChar_iff.mp (name.plain c hc).1).1
      · exact (isNameChar_iff.mp (name.plain _ (List.mem_of_getLast? hlast)).1).2.1 rfl
    simpa [chars, opened, Value.opened, Value.held, Value.closed] using hname.append gap.chars
  · have hquote : Solid [v.quote] := ⟨[], v.quote, rfl, v.quote_ne.1, v.quote_ne.2.1⟩
    exact hquote.append _
  · have hvalue : Solid v.chars :=
      solid_of_not_blank v.nonempty (fun c hc => (v.plain c hc).1) v.unslashed
    simpa [chars, Value.held, Value.closed] using
      hvalue.append (opened ⟨gap, parted, name, .bare before after v⟩)

end Attribute

namespace OpeningTag

theorem head_free (tag : OpeningTag) : '>' ∉ tag.head := by
  have hletter : '>' ≠ tag.letter := by
    intro h
    exact absurd (h ▸ tag.isLetter) (by decide)
  have hname : '>' ∉ tag.name := fun hmem => (isNameChar_iff.mp (tag.plain _ hmem)).2.2 rfl
  simp [head, hletter, hname]

theorem head_solid (tag : OpeningTag) : Solid tag.head := by
  have hsolid : Solid (tag.letter :: tag.name) := by
    refine solid_of_not_blank (List.cons_ne_nil _ _) ?_ fun hlast => ?_
    · refine List.forall_mem_cons.mpr ⟨not_blank_of_isAlpha tag.isLetter, fun c hc => ?_⟩
      exact (isNameChar_iff.mp (tag.plain c hc)).1
    · rcases List.mem_cons.mp (List.mem_of_getLast? hlast) with h | hmem
      · exact absurd (h ▸ tag.isLetter) (by decide)
      · exact (isNameChar_iff.mp (tag.plain _ hmem)).2.1 rfl
  exact hsolid.append ['<']

theorem opened_solid (tag : OpeningTag) : Solid tag.opened := by
  rcases List.eq_nil_or_concat tag.attributes with h | ⟨earlier, a, h⟩
  · rw [opened, h, List.flatMap_nil, List.append_nil]
    exact tag.head_solid
  · rw [opened, h, List.concat_eq_append, List.flatMap_append, List.flatMap_singleton]
    exact (a.solid.append _).append _

/-! ### The fragment -/

/-- A fragment is cut at its first `>`. -/
theorem insertInFragment_head (tag : OpeningTag) {more : List Char} (hmore : '>' ∉ more)
    (attr rest : List Char) :
    insertInFragment attr (tag.head ++ more ++ '>' :: rest) =
      insertInTag attr (tag.head ++ more) ++ '>' :: rest := by
  have hfree : ∀ c ∈ tag.head ++ more, (c != '>') = true := by
    intro c hc
    have hne : c ≠ '>' := by
      rintro rfl
      exact (List.mem_append.mp hc).elim tag.head_free hmore
    exact bne_iff_ne.mpr hne
  have htake : (tag.head ++ more ++ '>' :: rest).takeWhile (· != '>') = tag.head ++ more := by
    rw [List.takeWhile_append_of_pos hfree, List.takeWhile_cons]
    exact List.append_nil _
  have hdrop : (tag.head ++ more ++ '>' :: rest).dropWhile (· != '>') = '>' :: rest := by
    rw [List.dropWhile_append_of_pos hfree, List.dropWhile_cons]
    rfl
  have htag : (tag.letter.isAlpha && (tag.head ++ more ++ '>' :: rest).contains '>') = true := by
    simp [tag.isLetter]
  show (if tag.letter.isAlpha && (tag.head ++ more ++ '>' :: rest).contains '>' then _ else _) = _
  rw [if_pos htag]
  show insertInTag attr ((tag.head ++ more ++ '>' :: rest).takeWhile (· != '>')) ++
    (tag.head ++ more ++ '>' :: rest).dropWhile (· != '>') = _
  rw [htake, hdrop]

/-- In a whole tag the attribute goes to its end, before the slash. -/
theorem insertInTag_whole (tag : OpeningTag) (attr : List Char) :
    insertInTag attr (tag.opened ++ tag.blanks.chars ++ tag.slash) =
      tag.opened ++ tag.blanks.chars ++ attr ++ tag.slash := by
  by_cases hslash : tag.selfClosing = true
  · have hspaces : ∀ s ∈ ([] : List Char), s = ' ' := nofun
    rw [slash, if_pos hslash, insertInTag_concat (by decide) hspaces, if_pos rfl]
  · obtain ⟨before, after, hmore, hafter, hinsert⟩ :=
      tag.opened_solid.insertInTag attr tag.blanks.chars
    -- no slash is among the blanks
    have hempty : after = [] := by
      rcases hafter with h | h
      · exact h
      · have hmem : '/' ∈ tag.blanks.chars := by
          rw [hmore]
          exact List.mem_append_right _ (List.mem_of_head? h)
        exact absurd hmem (tag.blanks.not_mem (by decide))
    rw [hempty, List.append_nil] at hmore hinsert
    rw [slash, if_neg hslash, List.append_nil, List.append_nil, hinsert, hmore]

/-- A tag without `>` in its values is cut at its end. -/
theorem insertInFragment_clear (tag : OpeningTag) (hclear : ∀ a ∈ tag.attributes, a.Clear)
    (attr rest : List Char) :
    insertInFragment attr (tag.chars ++ rest) =
      tag.opened ++ tag.blanks.chars ++ attr ++ (tag.closing ++ rest) := by
  have hattributes := Attribute.flatMap_chars_free hclear
  have hblanks : '>' ∉ tag.blanks.chars := tag.blanks.not_mem (by decide)
  have hslash : '>' ∉ tag.slash := by
    rw [slash]
    split <;> decide
  have hmore : '>' ∉ tag.attributes.flatMap Attribute.chars ++ tag.blanks.chars ++ tag.slash := by
    simp [hattributes, hblanks, hslash]
  have hcut := tag.insertInFragment_head hmore attr rest
  have hinsert := tag.insertInTag_whole attr
  simp only [opened, chars, closing, List.append_assoc, List.cons_append, List.nil_append]
    at hcut hinsert ⊢
  rw [hcut, hinsert]
  simp only [List.append_assoc]

/-- The values are free of `>`, or there is a first one that is not. -/
theorem clear_or_first_unclear (attributes : List Attribute) :
    (∀ a ∈ attributes, a.Clear) ∨
      ∃ earlier a later, attributes = earlier ++ a :: later ∧ (∀ b ∈ earlier, b.Clear) ∧
        ¬ a.Clear := by
  induction attributes with
  | nil => exact .inl nofun
  | cons a attributes ih =>
    by_cases ha : a.Clear
    · rcases ih with hclear | ⟨earlier, b, later, rfl, hearlier, hb⟩
      · exact .inl (List.forall_mem_cons.mpr ⟨ha, hclear⟩)
      · exact .inr ⟨a :: earlier, b, later, rfl, List.forall_mem_cons.mpr ⟨ha, hearlier⟩, hb⟩
    · exact .inr ⟨[], a, attributes, rfl, nofun, ha⟩

/-- A tag with `>` in a value is cut inside the first such value. -/
theorem insertInFragment_unclear (tag : OpeningTag) {earlier later : List Attribute}
    {a : Attribute} {gap gap' : Gap} {v : QuotedValue}
    (hsplit : tag.attributes = earlier ++ a :: later) (hearlier : ∀ b ∈ earlier, b.Clear)
    (hvalue : a.value = .quoted gap gap' v) (hv : '>' ∈ v.chars) (attr rest : List Char) :
    ∃ inside beyond, v.chars = inside ++ beyond ∧ '>' ∉ inside ∧ '>' ∈ beyond ∧
      insertInFragment attr (tag.chars ++ rest) =
        tag.head ++ earlier.flatMap Attribute.chars ++ a.opened ++ inside ++ attr ++
          (beyond ++ a.value.closed ++ later.flatMap Attribute.chars ++ tag.blanks.chars ++
            tag.closing ++ rest) := by
  have hfree := Attribute.flatMap_chars_free hearlier
  have hheld : a.value.held = v.chars := by rw [hvalue]; rfl
  obtain ⟨upTo, further, hchars, hupTo⟩ := List.eq_append_cons_of_mem hv
  have hsolid := (Attribute.solid_opened hvalue).append
    (tag.head ++ earlier.flatMap Attribute.chars)
  obtain ⟨inside, after, hmore, -, hinsert⟩ := hsolid.insertInTag attr upTo
  have hfront : '>' ∉ earlier.flatMap Attribute.chars ++ a.opened ++ upTo := by
    simp [hfree, a.opened_free, hupTo]
  have hcut := tag.insertInFragment_head hfront attr
    (further ++ a.value.closed ++ later.flatMap Attribute.chars ++ tag.blanks.chars ++
      tag.closing ++ rest)
  refine ⟨inside, after ++ '>' :: further, ?_, ?_, by simp, ?_⟩
  · rw [hchars, hmore, List.append_assoc]
  · rw [hmore] at hupTo
    exact fun hmem => hupTo (List.mem_append_left _ hmem)
  · simp only [chars, opened, hsplit, List.flatMap_append, List.flatMap_cons, Attribute.chars,
      hheld, hchars, List.append_assoc, List.cons_append] at hcut hinsert ⊢
    rw [hcut, hinsert]
    simp only [List.append_assoc]

end OpeningTag

/-- **An attribute goes to the end of an opening tag, unless a value holds a `>`.**  For every
opening tag with any text behind it, and every attribute:

* **it goes in once**: the fragment is cut at one place and the attribute is put there, so the
  fragment is what is left when the attribute is taken out again;
* **at the end of the tag**, behind its last attribute and before its slash and its closing
  bracket, if no value of the tag holds a `>`;
* **otherwise inside a value**: the first one in which there is a `>`, and before that. -/
theorem withAttribute_openingTag (tag : OpeningTag) (rest attr : String) :
    ∃ before after, (tag.text ++ rest).toList = before ++ after ∧
      (withAttribute (tag.text ++ rest) attr).toList = before ++ attr.toList ++ after ∧
      (((∀ a ∈ tag.attributes, a.Clear) ∧
          before = tag.opened ++ tag.blanks.chars ∧ after = tag.closing ++ rest.toList) ∨
        ∃ earlier a later, tag.attributes = earlier ++ a :: later ∧ (∀ b ∈ earlier, b.Clear) ∧
          ∃ gap gap' v, a.value = .quoted gap gap' v ∧
            ∃ inside beyond, v.chars = inside ++ beyond ∧ '>' ∉ inside ∧ '>' ∈ beyond ∧
              before = tag.head ++ earlier.flatMap Attribute.chars ++ a.opened ++ inside) := by
  have htext : (tag.text ++ rest).toList = tag.chars ++ rest.toList := by
    rw [String.toList_append, OpeningTag.text, String.toList_ofList]
  rw [withAttribute, String.toList_ofList, htext]
  rcases OpeningTag.clear_or_first_unclear tag.attributes with
    hclear | ⟨earlier, a, later, hsplit, hearlier, ha⟩
  · refine ⟨_, _, ?_, tag.insertInFragment_clear hclear .., .inl ⟨hclear, rfl, rfl⟩⟩
    rw [OpeningTag.chars, List.append_assoc]
  · obtain ⟨gap, gap', v, hvalue⟩ := Attribute.quoted_of_not_clear ha
    have hheld : a.value.held = v.chars := by rw [hvalue]; rfl
    have hv : '>' ∈ v.chars := by rwa [Attribute.Clear, not_not, hheld] at ha
    obtain ⟨inside, beyond, hchars, hinside, hbeyond, hinsert⟩ :=
      tag.insertInFragment_unclear hsplit hearlier hvalue hv attr.toList rest.toList
    refine ⟨_, _, ?_, hinsert, .inr ⟨earlier, a, later, hsplit, hearlier, gap, gap', v, hvalue,
      inside, beyond, hchars, hinside, hbeyond, rfl⟩⟩
    simp only [OpeningTag.chars, OpeningTag.opened, hsplit, List.flatMap_append,
      List.flatMap_cons, Attribute.chars, hheld, hchars, List.append_assoc]

/-- Whether an attribute stands in the tag behind the last one that is there, before or after
some of the blanks at its end. -/
def OpeningTag.Placed (tag : OpeningTag) (rest attr result : List Char) : Prop :=
  ∃ before after, tag.blanks.chars = before ++ after ∧
    result = tag.opened ++ before ++ attr ++ after ++ tag.closing ++ rest

/-- What holds of each of some characters can be found out one by one. -/
theorem forall_mem_of_all {p : Char → Prop} [DecidablePred p] {cs : List Char}
    (h : cs.all (fun c => decide (p c)) = true) : ∀ c ∈ cs, p c :=
  fun c hc => of_decide_eq_true (List.all_eq_true.mp h c hc)

/-- A picture with a `>` in the text that stands for it gets the attribute in that text. -/
theorem attribute_inside_value :
    ∃ tag : OpeningTag, tag.text = "<img alt=\"a > b\">" ∧
      withAttribute tag.text " id=\"line1\"" = "<img alt=\"a  id=\"line1\"> b\">" ∧
      ¬ tag.Placed [] " id=\"line1\"".toList
        (withAttribute tag.text " id=\"line1\"").toList := by
  let alt : Attribute :=
    { gap := ⟨[' '], forall_mem_of_all (by decide)⟩
      parted := by decide
      name := ⟨"alt".toList, by decide, forall_mem_of_all (by decide)⟩
      value := .quoted ⟨[], nofun⟩ ⟨[], nofun⟩ ⟨'"', .inl rfl, "a > b".toList, by decide⟩ }
  let tag : OpeningTag :=
    { letter := 'i'
      isLetter := by decide
      name := "mg".toList
      plain := forall_mem_of_all (by decide)
      attributes := [alt]
      blanks := ⟨[], nofun⟩
      selfClosing := false }
  refine ⟨tag, by decide, by decide, ?_⟩
  rintro ⟨before, after, hblanks, h⟩
  obtain ⟨rfl, rfl⟩ := List.nil_eq_append_iff.mp hblanks
  revert h
  decide

end Worksheet.Markup
