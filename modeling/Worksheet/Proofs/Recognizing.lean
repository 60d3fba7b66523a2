/-
Which directive a line starts with.

The words of the directives are tried one after the other, and the first one that fits is taken.
What comes out does not depend on that order, as long as `#else if` is tried before `#else`: it
is the longest word that the line begins with.  Two words at the start of one line means that one
of them begins with the other, and among the words of the directives there is only that pair.

* `Directive.Begins` — a text begins with the word of a directive;
* `Directive.Begins.eq_or_else` — two words at the start of one text;
* `Directive.firstOf` — the first directive of a table that a text begins with;
* `Directive.firstOf_eq_some_iff` — that is the longest one;
* `Directive.ofLine?_longest_match` — what a line is recognized as.
-/
import Worksheet.Directive
import Mathlib.Data.List.Basic
import Mathlib.Data.List.Perm.Subperm

namespace Worksheet

/-! ### Words in some case -/

/-- A letter has as many bytes in either case. -/
theorem Text.utf8Size_toLower (c : Char) : c.toLower.utf8Size = c.utf8Size := by
  by_cases hcase : c.val ≥ 'A'.val ∧ c.val ≤ 'Z'.val
  · have hupper : c.val.toNat ≤ 90 := UInt32.le_iff_toNat_le.mp hcase.2
    have hval : c.toLower.val = c.val + ('a'.val - 'A'.val) := congrArg Char.val (dif_pos hcase)
    have hlower : c.toLower.val.toNat = c.val.toNat + 32 := by
      rw [hval, UInt32.toNat_add]
      refine Nat.mod_eq_of_lt ?_
      show c.val.toNat + 32 < 2 ^ 32
      omega
    rw [Char.utf8Size_eq_one_iff.mpr, Char.utf8Size_eq_one_iff.mpr]
    · exact UInt32.le_iff_toNat_le.mpr (Nat.le_trans hupper (by decide))
    · rw [UInt32.le_iff_toNat_le, hlower]
      exact Nat.le_trans (Nat.add_le_add_right hupper 32) (by decide)
  · exact congrArg Char.utf8Size (dif_neg hcase)

theorem Text.byteLength_map_toLower (cs : List Char) :
    byteLength (cs.map Char.toLower) = byteLength cs := by
  induction cs with
  | nil => rfl
  | cons c cs ih => rw [List.map_cons, byteLength, byteLength, ih, utf8Size_toLower]

/-- A word is stripped off a text that consists of the word in some case and the rest. -/
theorem stripWord?_eq_some_iff {word cs rest : List Char} :
    stripWord? word cs = some rest ↔
      ∃ head, cs = head ++ rest ∧ head.map Char.toLower = word := by
  constructor
  · intro h
    induction word generalizing cs with
    | nil =>
      rw [stripWord?] at h
      obtain rfl := Option.some.inj h
      exact ⟨[], rfl, rfl⟩
    | cons w word ih =>
      rcases cs with _ | ⟨c, cs⟩
      · cases h
      · rw [stripWord?] at h
        split at h
        · next hc =>
          obtain ⟨head, rfl, hword⟩ := ih h
          exact ⟨c :: head, rfl, by rw [List.map_cons, hc, hword]⟩
        · cases h
  · rintro ⟨head, rfl, rfl⟩
    induction head with
    | nil => rfl
    | cons c head ih =>
      rw [List.map_cons, List.cons_append, stripWord?, if_pos rfl]
      exact ih

namespace Directive

/-- The words of the directives are written in lower case. -/
theorem map_toLower_keyword (d : Directive) :
    d.keyword.toList.map Char.toLower = d.keyword.toList := by
  have hall : ∀ d ∈ all, d.keyword.toList.map Char.toLower = d.keyword.toList := by
    decide
  exact hall d d.mem_all

/-! ### The words that a text begins with -/

/-- A text begins with the word of a directive: as many bytes as the word has are the word in some
case, and what follows is the end of the text or a character that cannot continue a name. -/
def Begins (d : Directive) (cs rest : List Char) : Prop :=
  ∃ head, cs = head ++ rest ∧ Text.byteLength head = d.keywordLength ∧
    head.map Char.toLower = d.keyword.toList.map Char.toLower ∧
    ∀ c ∈ rest.head?, Text.isAlphanumeric c = false ∧ c ≠ '_'

theorem endsWord_iff {rest : List Char} :
    endsWord rest = true ↔ ∀ c ∈ rest.head?, Text.isAlphanumeric c = false ∧ c ≠ '_' := by
  cases rest with
  | nil => simp [endsWord]
  | cons c rest => simp [endsWord, Text.continuesName]

/-- A directive is found at the start of a text exactly if the text begins with its word. -/
theorem argument?_eq_some_iff {d : Directive} {cs rest : List Char} :
    d.argument? cs = some rest ↔ d.Begins cs rest := by
  have hstrip : d.argument? cs = some rest ↔
      stripWord? d.keyword.toList cs = some rest ∧ endsWord rest = true := by
    rw [argument?]
    rcases stripWord? d.keyword.toList cs with _ | found
    · simp
    · dsimp only
      split
      · next hends =>
        constructor
        · rintro h
          obtain rfl := Option.some.inj h
          exact ⟨rfl, hends⟩
        · exact And.left
      · next hends =>
        constructor
        · intro h
          cases h
        · rintro ⟨h, hrest⟩
          obtain rfl := Option.some.inj h
          exact absurd hrest hends
  rw [hstrip, stripWord?_eq_some_iff, endsWord_iff, Begins, d.map_toLower_keyword]
  constructor
  · rintro ⟨⟨head, hcs, hword⟩, hends⟩
    refine ⟨head, hcs, ?_, hword, hends⟩
    rw [keywordLength, ← hword, Text.byteLength_map_toLower]
  · rintro ⟨head, hcs, -, hword, hends⟩
    exact ⟨⟨head, hcs, hword⟩, hends⟩

variable {d d' : Directive} {cs rest rest' : List Char}

theorem Begins.rest_unique (h : d.Begins cs rest) (h' : d.Begins cs rest') : rest = rest' := by
  rw [← argument?_eq_some_iff] at h h'
  exact Option.some.inj (h.symm.trans h')

theorem Begins.keyword_prefix (h : d.Begins cs rest) :
    d.keyword.toList <+: cs.map Char.toLower := by
  obtain ⟨head, rfl, -, hword, -⟩ := h
  rw [map_toLower_keyword] at hword
  rw [List.map_append, hword]
  exact List.prefix_append _ _

/-- What follows the word is the text from the length of the word on. -/
theorem Begins.dropBytes?_eq (h : d.Begins cs rest) :
    Text.dropBytes? d.keywordLength cs = some rest := by
  obtain ⟨head, rfl, hlength, -, -⟩ := h
  rw [← hlength]
  exact Text.dropBytes?_byteLength_append head rest

/-- No word is the beginning of another one, except that `#else if` begins with `#else`. -/
theorem eq_or_else_of_prefix (h : d.keyword.toList <+: d'.keyword.toList) :
    d = d' ∨ d = .branch .otherwise ∧ d' = .branch .alternative := by
  have hall : ∀ d ∈ all, ∀ d' ∈ all, d.keyword.toList.isPrefixOf d'.keyword.toList = true →
      d = d' ∨ d = .branch .otherwise ∧ d' = .branch .alternative := by
    decide
  exact hall d d.mem_all d' d'.mem_all (List.isPrefixOf_iff_prefix.mpr h)

/-- Two words at the start of one text are the same, or `#else` and `#else if`. -/
theorem Begins.eq_or_else (h : d.Begins cs rest) (h' : d'.Begins cs rest') :
    d = d' ∨ d = .branch .otherwise ∧ d' = .branch .alternative ∨
      d = .branch .alternative ∧ d' = .branch .otherwise := by
  rcases List.prefix_or_prefix_of_prefix h.keyword_prefix h'.keyword_prefix with hp | hp
  · rcases eq_or_else_of_prefix hp with rfl | helse
    · exact .inl rfl
    · exact .inr (.inl helse)
  · rcases eq_or_else_of_prefix hp with rfl | ⟨hd', hd⟩
    · exact .inl rfl
    · exact .inr (.inr ⟨hd, hd'⟩)

/-- No more than two words begin the same text, and if there are two, they are `#else` and
`#else if`. -/
theorem length_le_two_of_begins {ds : List Directive} (hdistinct : ds.Nodup)
    (h : ∀ d ∈ ds, ∃ rest, d.Begins cs rest) :
    ds.length ≤ 2 ∧ (ds.length = 2 → ds ⊆ [.branch .alternative, .branch .otherwise]) := by
  rcases ds with _ | ⟨d, _ | ⟨d', ds⟩⟩
  · simp
  · simp
  · -- each word is one of the pair, because some other word begins the text as well
    have hpair : d :: d' :: ds ⊆ [.branch .alternative, .branch .otherwise] := by
      intro e he
      obtain ⟨other, hother, hne⟩ : ∃ other ∈ d :: d' :: ds, e ≠ other := by
        by_cases hed : e = d
        · refine ⟨d', by simp, ?_⟩
          rintro rfl
          simp [hed] at hdistinct
        · exact ⟨d, by simp, hed⟩
      obtain ⟨rest, he⟩ := h e he
      obtain ⟨rest', hother⟩ := h other hother
      rcases he.eq_or_else hother with heq | ⟨rfl, -⟩ | ⟨rfl, -⟩
      · exact absurd heq hne
      · simp
      · simp
    have hlength := (hdistinct.subperm hpair).length_le
    exact ⟨hlength, fun _ => hpair⟩

/-! ### The longest word -/

/-- The word of a directive is the longest one that a text begins with. -/
structure Longest (d : Directive) (cs rest : List Char) : Prop where
  begins : d.Begins cs rest
  longer : ∀ {d' : Directive} {rest' : List Char}, d'.Begins cs rest' → d' ≠ d →
    d'.keywordLength < d.keywordLength

theorem Longest.unique (h : d.Longest cs rest) (h' : d'.Longest cs rest') :
    d = d' ∧ rest = rest' := by
  by_cases heq : d = d'
  · subst heq
    exact ⟨rfl, h.begins.rest_unique h'.begins⟩
  · have hlt := h.longer h'.begins (Ne.symm heq)
    have hlt' := h'.longer h.begins heq
    omega

/-- The first directive of a table that a text begins with, and what follows its word. -/
def firstOf (table : List Directive) (cs : List Char) : Option (Directive × List Char) :=
  table.findSome? fun d => (d.argument? cs).map (d, ·)

theorem split?_eq_firstOf (cs : List Char) : split? cs = firstOf all cs := rfl

/-- A table has all directives, and `#else if` before `#else`. -/
structure InOrder (table : List Directive) : Prop where
  mem : ∀ d, d ∈ table
  before : table.idxOf (.branch .alternative) < table.idxOf (.branch .otherwise)

theorem inOrder_all : InOrder all where
  mem := mem_all
  before := by decide

variable {table : List Directive}

theorem firstOf_eq_none_iff (h : ∀ d, d ∈ table) :
    firstOf table cs = none ↔ ∀ d rest, ¬Begins d cs rest := by
  rw [firstOf, List.findSome?_eq_none_iff]
  constructor
  · intro hnone d rest hbegins
    have hd := hnone d (h d)
    rw [argument?_eq_some_iff.mpr hbegins] at hd
    cases hd
  · intro hnone d _
    rcases hargument : d.argument? cs with _ | rest
    · rfl
    · exact absurd (argument?_eq_some_iff.mp hargument) (hnone d rest)

/-- The first directive found is the longest one: only `#else` could hide a longer one, and
`#else if` comes before it. -/
theorem InOrder.longest (h : InOrder table) (hfirst : firstOf table cs = some (d, rest)) :
    d.Longest cs rest := by
  obtain ⟨earlier, e, later, rfl, he, hearlier⟩ := List.findSome?_eq_some_iff.mp hfirst
  obtain ⟨rest', hargument, heq⟩ := Option.map_eq_some_iff.mp he
  obtain ⟨rfl, rfl⟩ : e = d ∧ rest' = rest := by simpa using heq
  have hbegins := argument?_eq_some_iff.mp hargument
  refine ⟨hbegins, ?_⟩
  intro d' rest' hd' hne
  rcases hd'.eq_or_else hbegins with rfl | ⟨rfl, rfl⟩ | ⟨rfl, rfl⟩
  · exact absurd rfl hne
  · decide
  · -- `#else if` would have been found before `#else`
    have hunseen : ∀ d ∈ earlier, ∀ rest, ¬d.Begins cs rest := by
      intro d hd rest hbegins
      have hnone := hearlier d hd
      rw [argument?_eq_some_iff.mpr hbegins] at hnone
      cases hnone
    have hbefore := h.before
    rw [List.idxOf_append_of_notMem fun hmem => hunseen _ hmem _ hd',
      List.idxOf_append_of_notMem fun hmem => hunseen _ hmem _ hbegins,
      List.idxOf_cons_self] at hbefore
    omega

/-- The first directive of a table that a text begins with is the longest one. -/
theorem firstOf_eq_some_iff (h : InOrder table) :
    firstOf table cs = some (d, rest) ↔ d.Longest cs rest := by
  constructor
  · exact h.longest
  · intro hlongest
    rcases hfirst : firstOf table cs with _ | ⟨e, rest'⟩
    · exact absurd hlongest.begins ((firstOf_eq_none_iff h.mem).mp hfirst d rest)
    · obtain ⟨rfl, rfl⟩ := (h.longest hfirst).unique hlongest
      rfl

theorem split?_eq_some_iff : split? cs = some (d, rest) ↔ d.Longest cs rest :=
  firstOf_eq_some_iff inOrder_all

/-- A directive at the start of a text is its word in some case, and the rest follows it. -/
theorem split?_eq_some (h : split? cs = some (d, rest)) :
    ∃ before, cs = before ++ rest ∧ before.map Char.toLower = d.keyword.toList := by
  obtain ⟨before, hcs, -, hword, -⟩ := (split?_eq_some_iff.mp h).begins
  exact ⟨before, hcs, hword.trans d.map_toLower_keyword⟩

/-- All tables that have `#else if` before `#else` give the same. -/
theorem InOrder.firstOf_eq (h : InOrder table) (cs : List Char) :
    firstOf table cs = split? cs := by
  apply Option.ext
  rintro ⟨d, rest⟩
  rw [firstOf_eq_some_iff h, split?_eq_some_iff]

/-- **What a line is recognized as.**

* A line is recognized as a directive exactly if the word of that directive is the longest one that
  the line begins with, and as none exactly if it begins with no word.
* A line begins with two words at most, and if there are two, they are `#else` and `#else if`.
* Every table that has all directives, and `#else if` before `#else`, gives the same directive for
  the line, and the same text behind the word.
* The length of the word is an offset at which the line can be cut, and that text is what follows
  there. -/
theorem ofLine?_longest_match (line : String) :
    (∀ d, ofLine? line = some d ↔ ∃ rest, d.Longest line.toList rest) ∧
    (ofLine? line = none ↔ ∀ d rest, ¬Begins d line.toList rest) ∧
    (∀ ds : List Directive, ds.Nodup → (∀ d ∈ ds, ∃ rest, d.Begins line.toList rest) →
      ds.length ≤ 2 ∧ (ds.length = 2 → ds ⊆ [.branch .alternative, .branch .otherwise])) ∧
    (∀ table, InOrder table → firstOf table line.toList = split? line.toList) ∧
    ∀ d rest, split? line.toList = some (d, rest) →
      Text.dropBytes? d.keywordLength line.toList = some rest := by
  refine ⟨?_, ?_, ?_, ?_, ?_⟩
  · intro d
    rw [ofLine?, Option.map_eq_some_iff]
    constructor
    · rintro ⟨⟨d', rest⟩, hsplit, rfl⟩
      exact ⟨rest, split?_eq_some_iff.mp hsplit⟩
    · rintro ⟨rest, hlongest⟩
      exact ⟨(d, rest), split?_eq_some_iff.mpr hlongest, rfl⟩
  · rw [ofLine?, Option.map_eq_none_iff, split?_eq_firstOf]
    exact firstOf_eq_none_iff mem_all
  · intro ds hdistinct h
    exact length_le_two_of_begins hdistinct h
  · intro table h
    exact h.firstOf_eq line.toList
  · intro d rest hsplit
    exact (split?_eq_some_iff.mp hsplit).begins.dropBytes?_eq

/-- Case makes no difference, but blanks within the word and characters behind it do. -/
example : ofLine? "#Else if x" = some (.branch .alternative) ∧
    ofLine? "#ELSE  if x" = some (.branch .otherwise) ∧ ofLine? "#else_if" = none := by
  decide

end Directive

end Worksheet
