/-
What the quotes of a text mean.

The quotes divide a text into parts outside of quotes and quoted regions, which take turns.  A
region ends at the next quote of the kind that opened it, whatever stands between, and the end of
the text may cut the last region off.  Every text can be divided in this way, and in one only, so
a text may be said to be its own division (`Quoting`), and its segments can be read off that:
parts that are blank show nothing, and regions are shown with blanks around their content.

Reading a text from left to right, with a quote that is open or not and the characters since the
last delimiter, arrives at the same segments.

* `Quoting` — a text as its quotes divide it, with `exists_quoting` and `chars_injective`;
* `Quoting.segments` — the segments that it stands for;
* `Quoting.kept`, `Quoting.delimiters`, `Quoting.blanks` — where its characters go;
* `runs_chars`, `segments_chars` — what reading it finds;
* `segmentsFrom_quoting` — the segments of a line from an offset on.
-/
import Worksheet.Proofs.Placeholders
import Mathlib.Data.List.Basic
import Mathlib.Data.List.Perm.Basic

namespace Worksheet

/-! ### Texts as their quotes divide them -/

/-- Text outside of quotes. -/
@[ext]
structure Outside where
  chars : List Char
  unquoted : ∀ c ∈ chars, Quote.ofChar? c = none

/-- A quoted region: the quote that opens it, and content without that quote. -/
@[ext]
structure Region where
  quote : Quote
  chars : List Char
  unclosed : quote.char ∉ chars

/-- A text as its quotes divide it. -/
inductive Quoting where
  | plain (before : Outside)
  /-- The end of the text cuts the region off. -/
  | cut (before : Outside) (region : Region)
  | closed (before : Outside) (region : Region) (rest : Quoting)

namespace Outside

/-- Whether there is nothing to show. -/
def isBlank (e : Outside) : Bool :=
  e.chars.all Text.isBlank

/-- The segment of an expression, unless that is blank. -/
def segments (e : Outside) : List Segment :=
  if e.isBlank then [] else [⟨.expression, e.chars⟩]

/-- What is shown of it. -/
def kept (e : Outside) : List (List Char) :=
  if e.isBlank then [] else [e.chars]

/-- What is not. -/
def blanks (e : Outside) : List Char :=
  if e.isBlank then e.chars else []

end Outside

namespace Region

/-- What a region holds: text that starts with a tag is markup. -/
def kind (r : Region) : SegmentKind :=
  match r.quote with
  | .heading => .heading
  | .text => if (Text.trimLeft r.chars).head? = some '<' then .markup else .text

/-- The content of a region as it is shown.  Without content it is a blank; otherwise, unless only
values are shown, there is a blank behind it, and one before it unless it comes first. -/
def shown (valueOnly first : Bool) (r : Region) : List Char :=
  if r.chars = [] then [' ']
  else if valueOnly then r.chars
  else (if first then [] else [' ']) ++ r.chars ++ [' ']

def segment (valueOnly first : Bool) (r : Region) : Segment :=
  ⟨r.kind, r.shown valueOnly first⟩

end Region

namespace Quoting

/-- The text itself. -/
def chars : Quoting → List Char
  | .plain e => e.chars
  | .cut e r => e.chars ++ r.quote.char :: r.chars
  | .closed e r rest => e.chars ++ r.quote.char :: (r.chars ++ r.quote.char :: rest.chars)

/-- The segments of the text, given whether the first of them comes first on its line.  A region
is shown if it is closed or has content. -/
def segments (valueOnly : Bool) : Bool → Quoting → List Segment
  | _, .plain e => e.segments
  | first, .cut e r =>
    e.segments ++
      if r.chars = [] then [] else [r.segment valueOnly (first && e.isBlank)]
  | first, .closed e r rest =>
    e.segments ++ r.segment valueOnly (first && e.isBlank) :: rest.segments valueOnly false

/-! Where the characters of the text go. -/

/-- The parts that are shown, without any padding. -/
def kept : Quoting → List (List Char)
  | .plain e => e.kept
  | .cut e r => e.kept ++ if r.chars = [] then [] else [r.chars]
  | .closed e r rest => e.kept ++ r.chars :: rest.kept

/-- The quotes that open and close regions. -/
def delimiters : Quoting → List Char
  | .plain _ => []
  | .cut _ r => [r.quote.char]
  | .closed _ r rest => r.quote.char :: r.quote.char :: rest.delimiters

/-- The parts outside of quotes that are blank. -/
def blanks : Quoting → List Char
  | .plain e => e.blanks
  | .cut e _ => e.blanks
  | .closed e _ rest => e.blanks ++ rest.blanks

end Quoting

/-! ### One way to divide a text -/

theorem Quote.ofChar?_char (q : Quote) : ofChar? q.char = some q := by
  cases q <;> rfl

theorem Quote.eq_char {c : Char} {q : Quote} (h : ofChar? c = some q) : c = q.char := by
  rw [ofChar?] at h
  split at h
  · next hc =>
    cases h
    exact hc
  split at h
  · next hc =>
    cases h
    exact hc
  · cases h

/-- A text has no quotes, or it has a first one. -/
theorem exists_outside (cs : List Char) :
    (∃ e : Outside, cs = e.chars) ∨
      ∃ (e : Outside) (q : Quote) (rest : List Char), cs = e.chars ++ q.char :: rest := by
  induction cs with
  | nil => exact .inl ⟨⟨[], by simp⟩, rfl⟩
  | cons c cs ih =>
    rcases hc : Quote.ofChar? c with _ | q
    · rcases ih with ⟨e, rfl⟩ | ⟨e, q, rest, rfl⟩
      · exact .inl ⟨⟨c :: e.chars, List.forall_mem_cons.mpr ⟨hc, e.unquoted⟩⟩, rfl⟩
      · exact .inr ⟨⟨c :: e.chars, List.forall_mem_cons.mpr ⟨hc, e.unquoted⟩⟩, q, rest, rfl⟩
    · exact .inr ⟨⟨[], by simp⟩, q, cs, by rw [Quote.eq_char hc]; rfl⟩

/-- Every text can be divided by its quotes. -/
theorem exists_quoting (cs : List Char) : ∃ q : Quoting, q.chars = cs := by
  rcases exists_outside cs with ⟨e, rfl⟩ | ⟨e, quote, rest, rfl⟩
  · exact ⟨.plain e, rfl⟩
  by_cases hclosed : quote.char ∈ rest
  · obtain ⟨content, after, hrest, hcontent⟩ := List.eq_append_cons_of_mem hclosed
    have hshorter : after.length < (e.chars ++ quote.char :: rest).length := by
      rw [hrest]
      simp only [List.length_append, List.length_cons]
      omega
    obtain ⟨q, hq⟩ := exists_quoting after
    exact ⟨.closed e ⟨quote, content, hcontent⟩ q, by rw [Quoting.chars, hq, hrest]⟩
  · exact ⟨.cut e ⟨quote, rest, hclosed⟩, rfl⟩
termination_by cs.length

/-! ### Reading a divided text -/

/-- The runs that a divided text consists of. -/
def Quoting.runs : Quoting → List Run
  | .plain e => [⟨none, e.chars, false⟩]
  | .cut e r => [⟨none, e.chars, true⟩, ⟨some r.quote, r.chars, false⟩]
  | .closed e r rest => ⟨none, e.chars, true⟩ :: ⟨some r.quote, r.chars, true⟩ :: rest.runs

/-- Characters that are no quotes belong to the run outside of quotes. -/
theorem runsFrom_outside (e : Outside) (read rest : List Char) :
    runsFrom none read (e.chars ++ rest) = runsFrom none (e.chars.reverse ++ read) rest := by
  obtain ⟨chars, unquoted⟩ := e
  induction chars generalizing read with
  | nil => rfl
  | cons c cs ih =>
    obtain ⟨hc, hcs⟩ := List.forall_mem_cons.mp unquoted
    have hcons : runsFrom none read (c :: (cs ++ rest)) =
        runsFrom none (c :: read) (cs ++ rest) := by
      conv => lhs; unfold runsFrom
      rw [hc]
    rw [List.cons_append, hcons, List.reverse_cons, List.append_assoc]
    exact ih (c :: read) hcs

/-- Inside a region, the quote of the other kind is a character like any other. -/
theorem runsFrom_region (r : Region) (read rest : List Char) :
    runsFrom (some r.quote) read (r.chars ++ rest) =
      runsFrom (some r.quote) (r.chars.reverse ++ read) rest := by
  obtain ⟨quote, chars, unclosed⟩ := r
  induction chars generalizing read with
  | nil => rfl
  | cons c cs ih =>
    obtain ⟨hc, hcs⟩ := not_or.mp fun h => unclosed (List.mem_cons.mpr h)
    have hcons : runsFrom (some quote) read (c :: (cs ++ rest)) =
        runsFrom (some quote) (c :: read) (cs ++ rest) := by
      conv => lhs; unfold runsFrom
      rcases hquote : Quote.ofChar? c with _ | q
      · rfl
      · have hne : q ≠ quote := by
          rintro rfl
          exact hc (Quote.eq_char hquote).symm
        exact if_neg hne
    rw [List.cons_append, hcons, List.reverse_cons, List.append_assoc]
    exact ih (c :: read) hcs

theorem runsFrom_opening (q : Quote) (read rest : List Char) :
    runsFrom none read (q.char :: rest) =
      ⟨none, read.reverse, true⟩ :: runsFrom (some q) [] rest := by
  conv => lhs; unfold runsFrom
  rw [Quote.ofChar?_char]

theorem runsFrom_closing (q : Quote) (read rest : List Char) :
    runsFrom (some q) read (q.char :: rest) = ⟨some q, read.reverse, true⟩ :: runs rest := by
  conv => lhs; unfold runsFrom
  rw [Quote.ofChar?_char]
  exact if_pos rfl

/-- Reading a text finds the runs that it consists of. -/
theorem runs_chars (q : Quoting) : runs q.chars = q.runs := by
  induction q with
  | plain e =>
    have he := runsFrom_outside e [] []
    rw [List.append_nil, List.append_nil] at he
    rw [runs, Quoting.chars, he, runsFrom, List.reverse_reverse]
    rfl
  | cut e r =>
    have hr := runsFrom_region r [] []
    rw [List.append_nil, List.append_nil] at hr
    rw [runs, Quoting.chars, runsFrom_outside, runsFrom_opening, hr, runsFrom, List.append_nil,
      List.reverse_reverse, List.reverse_reverse]
    rfl
  | closed e r rest ih =>
    rw [runs, Quoting.chars, runsFrom_outside, runsFrom_opening, runsFrom_region, runsFrom_closing,
      ih, List.append_nil, List.append_nil, List.reverse_reverse, List.reverse_reverse]
    rfl

namespace Quoting

theorem runs_injective {p q : Quoting} (h : p.runs = q.runs) : p = q := by
  induction p generalizing q with
  | plain e =>
    cases q with
    | plain e' =>
      have he : e.chars = e'.chars := by simpa [runs] using h
      rw [Outside.ext he]
    | cut e' r' => simp [runs] at h
    | closed e' r' rest' => simp [runs] at h
  | cut e r =>
    cases q with
    | plain e' => simp [runs] at h
    | cut e' r' =>
      obtain ⟨he, hquote, hr⟩ : e.chars = e'.chars ∧ r.quote = r'.quote ∧ r.chars = r'.chars := by
        simpa [runs] using h
      rw [Outside.ext he, Region.ext hquote hr]
    | closed e' r' rest' => simp [runs] at h
  | closed e r rest ih =>
    cases q with
    | plain e' => simp [runs] at h
    | cut e' r' => simp [runs] at h
    | closed e' r' rest' =>
      obtain ⟨he, ⟨hquote, hr⟩, hrest⟩ : e.chars = e'.chars ∧
          (r.quote = r'.quote ∧ r.chars = r'.chars) ∧ rest.runs = rest'.runs := by
        simpa [runs] using h
      rw [Outside.ext he, Region.ext hquote hr, ih hrest]

/-- There is one way only to divide a text by its quotes. -/
theorem chars_injective {p q : Quoting} (h : p.chars = q.chars) : p = q := by
  apply runs_injective
  rw [← runs_chars, ← runs_chars, h]

end Quoting

/-! ### The segments of a divided text -/

/-- Blanks around a text do not change with which character it starts. -/
theorem head?_trimLeft_pad (valueOnly first : Bool) (cs : List Char) :
    (Text.trimLeft (pad valueOnly first cs)).head? = (Text.trimLeft cs).head? := by
  have hblank : Text.isBlank ' ' = true := by decide
  have hbehind : (Text.trimLeft (cs ++ [' '])).head? = (Text.trimLeft cs).head? := by
    rw [Text.trimLeft, Text.trimLeft, List.dropWhile_append]
    split
    · next hempty =>
      rw [List.isEmpty_iff.mp hempty, List.dropWhile_cons_of_pos hblank]
      rfl
    · next hne =>
      rw [List.head?_append_of_ne_nil _ (by simpa using hne)]
  rw [pad]
  split
  · next hempty =>
    rw [List.isEmpty_iff.mp hempty, Text.trimLeft, List.dropWhile_cons_of_pos hblank]
    rfl
  split
  · rfl
  split
  · exact hbehind
  · rw [Text.trimLeft, List.cons_append, List.dropWhile_cons_of_pos hblank]
    exact hbehind

theorem Region.shown_eq_pad (valueOnly first : Bool) (r : Region) :
    r.shown valueOnly first = pad valueOnly first r.chars := by
  rw [shown, pad]
  rcases hchars : r.chars with _ | ⟨c, cs⟩
  · rfl
  · rw [if_neg (List.cons_ne_nil c cs), List.isEmpty_cons, if_neg Bool.false_ne_true]
    cases valueOnly <;> cases first <;> rfl

/-- A region is shown as the run that it is. -/
theorem Region.segment_run (valueOnly first closed : Bool) (r : Region) :
    Run.segment valueOnly first ⟨some r.quote, r.chars, closed⟩ = r.segment valueOnly first := by
  obtain ⟨quote, chars, unclosed⟩ := r
  rw [Run.segment, segment, shown_eq_pad, kind]
  cases quote with
  | heading => rfl
  | text =>
    dsimp only
    rw [head?_trimLeft_pad]

theorem isShown_outside (closed : Bool) (e : Outside) :
    Run.isShown ⟨none, e.chars, closed⟩ = !e.isBlank := by
  have htrim : (Text.trim e.chars).isEmpty = e.isBlank := by
    rw [Bool.eq_iff_iff, List.isEmpty_iff, Text.trim_eq_nil_iff, Outside.isBlank, List.all_eq_true]
  rw [Run.isShown, htrim]

/-- The segments of some runs, given whether the first of them comes first on its line. -/
def segmentsOf (valueOnly : Bool) : Bool → List Run → List Segment
  | _, [] => []
  | first, r :: rs =>
    if r.isShown then r.segment valueOnly first :: segmentsOf valueOnly false rs
    else segmentsOf valueOnly first rs

theorem segmentsOf_false (valueOnly : Bool) (rs : List Run) :
    segmentsOf valueOnly false rs = (rs.filter Run.isShown).map (Run.segment valueOnly false) := by
  induction rs with
  | nil => rfl
  | cons r rs ih =>
    rw [segmentsOf, List.filter_cons, ih]
    split
    · rfl
    · rfl

theorem segments_eq_segmentsOf (valueOnly : Bool) (cs : List Char) :
    segments valueOnly cs = segmentsOf valueOnly true (runs cs) := by
  rw [segments]
  generalize runs cs = rs
  induction rs with
  | nil => rfl
  | cons r rs ih =>
    rw [segmentsOf, List.filter_cons]
    rcases r.isShown with _ | _
    · exact ih
    · rw [if_pos rfl, if_pos rfl, segmentsOf_false]

/-- A part outside of quotes comes before the others, unless it is blank. -/
theorem segmentsOf_outside (valueOnly first closed : Bool) (e : Outside) (rs : List Run) :
    segmentsOf valueOnly first (⟨none, e.chars, closed⟩ :: rs) =
      e.segments ++ segmentsOf valueOnly (first && e.isBlank) rs := by
  rw [segmentsOf, isShown_outside, Outside.segments]
  rcases e.isBlank with _ | _
  · rw [Bool.and_false]
    rfl
  · rw [Bool.and_true]
    rfl

/-- A divided text stands for the segments of its runs. -/
theorem segmentsOf_runs (valueOnly first : Bool) (q : Quoting) :
    segmentsOf valueOnly first q.runs = q.segments valueOnly first := by
  induction q generalizing first with
  | plain e =>
    rw [Quoting.runs, segmentsOf_outside]
    exact List.append_nil _
  | cut e r =>
    rw [Quoting.runs, segmentsOf_outside, segmentsOf, Region.segment_run, Quoting.segments]
    rcases hchars : r.chars with _ | ⟨c, cs⟩
    · rfl
    · rfl
  | closed e r rest ih =>
    rw [Quoting.runs, segmentsOf_outside, segmentsOf, Region.segment_run, Quoting.segments, ih]
    rfl

/-- Reading a text finds the segments that it stands for. -/
theorem segments_chars (valueOnly : Bool) (q : Quoting) :
    segments valueOnly q.chars = q.segments valueOnly true := by
  rw [segments_eq_segmentsOf, runs_chars, segmentsOf_runs]

/-! ### Where the characters go -/

namespace Outside

theorem kept_sublist (e : Outside) : e.kept.flatten.Sublist e.chars := by
  rw [kept]
  split
  · exact List.nil_sublist _
  · rw [List.flatten_singleton]

theorem count_chars (c : Char) (e : Outside) :
    e.chars.count c = e.kept.flatten.count c + e.blanks.count c := by
  rw [kept, blanks]
  split
  · rw [List.flatten_nil, List.count_nil, Nat.zero_add]
  · rw [List.flatten_singleton, List.count_nil, Nat.add_zero]

/-- An expression is not empty. -/
theorem chars_segments (e : Outside) :
    e.segments.map Segment.chars = e.kept.map fun cs => if cs = [] then [' '] else cs := by
  rw [segments, kept]
  split
  · rfl
  · next hblank =>
    have hne : e.chars ≠ [] := by
      intro hnil
      rw [isBlank, hnil] at hblank
      exact hblank rfl
    rw [List.map_singleton, List.map_singleton, if_neg hne]

end Outside

namespace Quoting

/-- What is shown are parts of the text, in their order. -/
theorem kept_sublist (q : Quoting) : q.kept.flatten.Sublist q.chars := by
  induction q with
  | plain e => exact e.kept_sublist
  | cut e r =>
    rw [kept, List.flatten_append, chars]
    refine e.kept_sublist.append ?_
    split
    · exact List.nil_sublist _
    · rw [List.flatten_singleton]
      exact List.sublist_cons_self _ _
  | closed e r rest ih =>
    rw [kept, List.flatten_append, List.flatten_cons, chars]
    refine e.kept_sublist.append (.cons _ ((List.Sublist.refl _).append ?_))
    exact ih.cons _

/-- Every character of the text is shown, delimits a region, or is blank and outside of quotes. -/
theorem perm_chars (q : Quoting) :
    q.chars.Perm (q.kept.flatten ++ (q.delimiters ++ q.blanks)) := by
  rw [List.perm_iff_count]
  intro c
  induction q with
  | plain e =>
    rw [chars, e.count_chars, kept, delimiters, blanks, List.nil_append, List.count_append]
  | cut e r =>
    have hregion : (if r.chars = [] then [] else [r.chars]).flatten = r.chars := by
      split
      · next hnil => rw [hnil, List.flatten_nil]
      · rw [List.flatten_singleton]
    have he := e.count_chars c
    rw [chars, kept, delimiters, blanks, List.flatten_append, hregion]
    simp only [List.count_append, List.count_cons, List.count_nil]
    omega
  | closed e r rest ih =>
    have he := e.count_chars c
    rw [chars, kept, delimiters, blanks, List.flatten_append, List.flatten_cons]
    simp only [List.count_append, List.count_cons] at ih ⊢
    omega

/-- Where only values are shown, the segments hold the parts themselves, and a blank for a region
without content. -/
theorem chars_segments (first : Bool) (q : Quoting) :
    (q.segments true first).map Segment.chars =
      q.kept.map fun cs => if cs = [] then [' '] else cs := by
  induction q generalizing first with
  | plain e => exact e.chars_segments
  | cut e r =>
    rw [segments, kept, List.map_append, List.map_append, e.chars_segments]
    congr 1
    split
    · rfl
    · rfl
  | closed e r rest ih =>
    rw [segments, kept, List.map_append, List.map_append, List.map_cons, List.map_cons,
      e.chars_segments, ih]
    rfl

/-- Padding changes neither how many segments there are nor what kinds of them. -/
theorem kind_segments (first first' : Bool) (q : Quoting) :
    (q.segments true first).map Segment.kind = (q.segments false first').map Segment.kind := by
  induction q generalizing first first' with
  | plain e => rfl
  | cut e r =>
    rw [segments, segments, List.map_append, List.map_append]
    congr 1
    split
    · rfl
    · rfl
  | closed e r rest ih =>
    rw [segments, segments, List.map_append, List.map_append, List.map_cons, List.map_cons,
      ih false false]
    rfl

end Quoting

/-! ### Lines from an offset on -/

theorem Text.byteLength_toList (s : String) : byteLength s.toList = s.utf8ByteSize := by
  have hlist : ∀ cs : List Char, byteLength cs = (String.ofList cs).utf8ByteSize := by
    intro cs
    induction cs with
    | nil => rfl
    | cons c cs ih =>
      rw [byteLength, ih, String.ofList_cons, String.utf8ByteSize_append,
        String.utf8ByteSize_singleton]
  rw [hlist, String.ofList_toList]

/-- An offset behind some beginning of a line cuts that off. -/
theorem segmentsFrom_append (before after : String) (valueOnly : Bool) :
    segmentsFrom (before ++ after) before.utf8ByteSize valueOnly =
      segments valueOnly after.toList := by
  rw [segmentsFrom, String.toList_append, ← Text.byteLength_toList,
    Text.dropBytes?_byteLength_append, Option.getD_some]

/-- **The segments of a line are what its quotes divide it into.**  From every offset on that does
not lie inside a character, that is, behind any beginning of the line, there is one way to divide
the line into parts outside of quotes and quoted regions; its segments are an expression for each
part that is not blank, and text, a heading or markup for each region that is closed or has
content, with the padding that `Region.shown` says.  Nothing else is lost but the delimiters and
the blank parts, and nothing is shown twice or in another order.  Whether only values are shown
makes no difference to the number and the kinds of the segments, nor to the expressions. -/
theorem segmentsFrom_quoting (before after : String) :
    let shown := segmentsFrom (before ++ after) before.utf8ByteSize
    ∃ q : Quoting, q.chars = after.toList ∧ (∀ p : Quoting, p.chars = after.toList → p = q) ∧
      (∀ valueOnly, shown valueOnly = q.segments valueOnly true) ∧
      (q.kept.flatten.Sublist after.toList ∧
        after.toList.Perm (q.kept.flatten ++ (q.delimiters ++ q.blanks)) ∧
        (shown true).map Segment.chars = q.kept.map fun cs => if cs = [] then [' '] else cs) ∧
      (shown true).map Segment.kind = (shown false).map Segment.kind ∧
      expressionsAmong (shown true) = expressionsAmong (shown false) := by
  obtain ⟨q, hq⟩ := exists_quoting after.toList
  have hshown : ∀ valueOnly, segmentsFrom (before ++ after) before.utf8ByteSize valueOnly =
      q.segments valueOnly true := by
    intro valueOnly
    rw [segmentsFrom_append, ← hq, segments_chars]
  refine ⟨q, hq, ?_, hshown, ⟨?_, ?_, ?_⟩, ?_, ?_⟩
  · intro p hp
    exact Quoting.chars_injective (hp.trans hq.symm)
  · rw [← hq]
    exact q.kept_sublist
  · rw [← hq]
    exact q.perm_chars
  · rw [hshown, q.chars_segments]
  · rw [hshown, hshown]
    exact q.kind_segments true true
  · rw [segmentsFrom_append, segmentsFrom_append, expressionsAmong_segments,
      expressionsAmong_segments]

end Worksheet
