/-
Where counting placeholders and evaluating a line part.

A line that is passed over moves the queue by the number of its placeholders.  Counting them takes
any quote as the beginning or the end of a region, and a region really ends only at a quote of the
kind that opened it: the quotes of the other kind inside of it are foreign.  So behind an odd
number of foreign quotes, counting has expressions and regions the wrong way round.  It misses the
placeholders of the expressions there, and it takes those of the regions for placeholders.

The two numbers say exactly how far the queue of a line that is passed over drifts from the queue
of one that is evaluated.

* `strays` — the placeholders of a part that are behind an odd number of foreign quotes;
* `Quoting.missed`, `Quoting.surplus` — those in expressions, and those in regions;
* `Quoting.countFrom_chars` — counting, against the expressions of a text;
* `CutAt` — where a line is cut off before it is read;
* `placeholderCount_drift` — counting a line against evaluating it.
-/
import Worksheet.Proofs.Quoting
import Worksheet.Proofs.Reading
import Worksheet.Proofs.Recorder
import Worksheet.Proofs.Trajectory
import Mathlib.Data.Nat.Bits
import Mathlib.Data.Nat.ModEq

namespace Worksheet

/-! ### Foreign quotes -/

/-- The number of quotes in a text. -/
def quoteCount : List Char → Nat
  | [] => 0
  | c :: cs => if (Quote.ofChar? c).isSome then quoteCount cs + 1 else quoteCount cs

/-- The placeholders of a part that are behind an odd number of foreign quotes, given how many
there are before the part. -/
def strays : Nat → List Char → Nat
  | _, [] => 0
  | foreign, c :: cs =>
    if (Quote.ofChar? c).isSome then strays (foreign + 1) cs
    else if c = '?' ∧ foreign.bodd then strays foreign cs + 1
    else strays foreign cs

namespace Quoting

/-- The placeholders of expressions that counting misses. -/
def missed : Nat → Quoting → Nat
  | foreign, .plain e => strays foreign e.chars
  | foreign, .cut e _ => strays foreign e.chars
  | foreign, .closed e r rest =>
    strays foreign e.chars + rest.missed (foreign + quoteCount r.chars)

/-- What counting takes for placeholders inside of regions. -/
def surplus : Nat → Quoting → Nat
  | _, .plain _ => 0
  | foreign, .cut _ r => strays foreign r.chars
  | foreign, .closed _ r rest =>
    strays foreign r.chars + rest.surplus (foreign + quoteCount r.chars)

end Quoting

theorem Quote.ofChar?_placeholder : ofChar? '?' = none := by
  decide

/-- Outside of regions, counting finds all placeholders but the strays. -/
theorem countFrom_add_strays (foreign : Nat) (cs : List Char) :
    countFrom foreign.bodd cs + strays foreign cs = cs.count '?' := by
  induction cs generalizing foreign with
  | nil => rfl
  | cons c cs ih =>
    rw [countFrom, strays]
    rcases hc : Quote.ofChar? c with _ | quote
    · have hrest := ih foreign
      by_cases hmark : c = '?'
      · rw [hmark, List.count_cons_self]
        rcases hodd : foreign.bodd with _ | _
        · rw [hodd] at hrest
          simp
          omega
        · rw [hodd] at hrest
          simp
          omega
      · rw [List.count_cons_of_ne hmark]
        simp [hmark, hrest]
    · have hmark : c ≠ '?' := by
        rintro rfl
        rw [Quote.ofChar?_placeholder] at hc
        cases hc
      rw [List.count_cons_of_ne hmark, ← ih (foreign + 1), Nat.bodd_succ]
      rfl

/-- Inside of regions, counting finds the strays. -/
theorem countFrom_not (foreign : Nat) (cs : List Char) :
    countFrom (!foreign.bodd) cs = strays foreign cs := by
  induction cs generalizing foreign with
  | nil => rfl
  | cons c cs ih =>
    rw [countFrom, strays]
    rcases hc : Quote.ofChar? c with _ | quote
    · rw [ih, Bool.not_not]
      simp
    · rw [← Nat.bodd_succ, ih]
      rfl

theorem quoteCount_eq_zero {cs : List Char} (h : ∀ c ∈ cs, Quote.ofChar? c = none) :
    quoteCount cs = 0 := by
  induction cs with
  | nil => rfl
  | cons c cs ih =>
    obtain ⟨hc, hcs⟩ := List.forall_mem_cons.mp h
    rw [quoteCount, hc]
    exact ih hcs

/-- Without foreign quotes there are no strays. -/
theorem strays_eq_zero {cs : List Char} (h : ∀ c ∈ cs, Quote.ofChar? c = none) :
    strays 0 cs = 0 := by
  induction cs with
  | nil => rfl
  | cons c cs ih =>
    obtain ⟨hc, hcs⟩ := List.forall_mem_cons.mp h
    rw [strays, hc, ih hcs]
    simp

/-- Counting the second of two parts starts inside or outside as the quotes of the first say. -/
theorem countFrom_parts (foreign : Nat) (xs ys : List Char) :
    countFrom foreign.bodd (xs ++ ys) =
      countFrom foreign.bodd xs + countFrom (foreign + quoteCount xs).bodd ys := by
  induction xs generalizing foreign with
  | nil =>
    rw [countFrom, Nat.zero_add]
    rfl
  | cons c cs ih =>
    rw [List.cons_append, countFrom, countFrom, quoteCount]
    rcases hc : Quote.ofChar? c with _ | quote
    · rw [ih foreign]
      simp only [Option.isSome_none, Bool.false_eq_true, if_false]
      split
      · omega
      · rfl
    · have hrest := ih (foreign + 1)
      rw [Nat.bodd_succ, Nat.add_right_comm] at hrest
      exact hrest

/-! ### Texts -/

theorem expressionsAmong_append (xs ys : List Segment) :
    expressionsAmong (xs ++ ys) = expressionsAmong xs ++ expressionsAmong ys := by
  induction xs with
  | nil => rfl
  | cons s rest ih =>
    rw [List.cons_append, expressionsAmong, expressionsAmong, ih]
    split
    · rfl
    · rfl

theorem takenBy_append (es es' : List (List Char)) :
    takenBy (es ++ es') = takenBy es + takenBy es' := by
  rw [takenBy, List.map_append, List.sum_append]
  rfl

/-- The placeholders of a part outside of quotes are all in its expression: a part that is left
out is blank. -/
theorem Outside.takenBy_segments (e : Outside) :
    takenBy (expressionsAmong e.segments) = e.chars.count '?' := by
  rw [segments]
  split
  · next hblank =>
    symm
    rw [expressionsAmong, takenBy_nil, List.count_eq_zero]
    intro hmem
    have hmark := List.all_eq_true.mp hblank _ hmem
    rw [isBlank_placeholder] at hmark
    cases hmark
  · exact takenBy_cons e.chars []

theorem Region.expressionsAmong_segment (valueOnly first : Bool) (r : Region)
    (rest : List Segment) :
    expressionsAmong (r.segment valueOnly first :: rest) = expressionsAmong rest := by
  rw [← segment_run valueOnly first true]
  exact expressionsAmong_cons valueOnly first _ rest

/-- The quote that opens a region, or closes it, makes counting change sides. -/
theorem countFrom_quote (inside : Bool) (q : Quote) (cs : List Char) :
    countFrom inside (q.char :: cs) = countFrom (!inside) cs := by
  rw [countFrom, Quote.ofChar?_char]
  rfl

/-- Counting a text finds the placeholders of its expressions, apart from those it misses, and
those it takes from regions. -/
theorem Quoting.countFrom_chars (foreign : Nat) (valueOnly first : Bool) (q : Quoting) :
    countFrom foreign.bodd q.chars + q.missed foreign =
      takenBy (expressionsAmong (q.segments valueOnly first)) + q.surplus foreign := by
  -- counting arrives at the first region with the same number of foreign quotes
  have hopening : ∀ (foreign : Nat) (e : Outside) (r : Region) (rest : List Char),
      countFrom foreign.bodd (e.chars ++ r.quote.char :: rest) + strays foreign e.chars =
        e.chars.count '?' + countFrom (!foreign.bodd) rest := by
    intro foreign e r rest
    have he := countFrom_add_strays foreign e.chars
    rw [countFrom_parts, quoteCount_eq_zero e.unquoted, Nat.add_zero, countFrom_quote]
    omega
  induction q generalizing foreign first with
  | plain e =>
    rw [chars, missed, segments, surplus, e.takenBy_segments]
    exact countFrom_add_strays foreign e.chars
  | cut e r =>
    have hregion : expressionsAmong
        (if r.chars = [] then [] else [r.segment valueOnly (first && e.isBlank)]) = [] := by
      split
      · rfl
      · exact r.expressionsAmong_segment _ _ []
    rw [chars, missed, segments, surplus, hopening, countFrom_not, expressionsAmong_append,
      hregion, List.append_nil, e.takenBy_segments]
  | closed e r rest ih =>
    have hregion : countFrom (!foreign.bodd) (r.chars ++ r.quote.char :: rest.chars) =
        strays foreign r.chars + countFrom (foreign + quoteCount r.chars).bodd rest.chars := by
      have hparts := countFrom_parts (foreign + 1) r.chars (r.quote.char :: rest.chars)
      rw [Nat.bodd_succ, countFrom_not foreign r.chars, countFrom_quote, Nat.add_right_comm,
        Nat.bodd_succ, Bool.not_not] at hparts
      exact hparts
    have hopened := hopening foreign e r (r.chars ++ r.quote.char :: rest.chars)
    have hrest := ih (foreign + quoteCount r.chars) false
    rw [chars, missed, segments, surplus, expressionsAmong_append, takenBy_append,
      e.takenBy_segments, r.expressionsAmong_segment]
    rw [hregion] at hopened
    omega

/-- Counting a whole text. -/
theorem Quoting.placeholderCount_chars (q : Quoting) :
    placeholderCount q.chars + q.missed 0 = takenBy (expressionsOf q.chars) + q.surplus 0 := by
  have hchars := q.countFrom_chars 0 false true
  rw [← segments_chars, expressionsAmong_segments] at hchars
  exact hchars

/-- Where no region holds a foreign quote, nothing is missed and nothing is taken from regions. -/
theorem Quoting.missed_of_apart {q : Quoting} (h : QuotesApart q.chars) :
    q.missed 0 = 0 ∧ q.surplus 0 = 0 := by
  rw [QuotesApart, runs_chars] at h
  induction q with
  | plain e => exact ⟨strays_eq_zero e.unquoted, rfl⟩
  | cut e r =>
    have hr : ∀ c ∈ r.chars, Quote.ofChar? c = none :=
      h ⟨some r.quote, r.chars, false⟩ (by simp [runs]) rfl
    exact ⟨strays_eq_zero e.unquoted, strays_eq_zero hr⟩
  | closed e r rest ih =>
    have hr : ∀ c ∈ r.chars, Quote.ofChar? c = none :=
      h ⟨some r.quote, r.chars, true⟩ (by simp [runs]) rfl
    obtain ⟨hmissed, hsurplus⟩ := ih fun run hrun => h run (by simp [runs, hrun])
    rw [missed, surplus, quoteCount_eq_zero hr, strays_eq_zero e.unquoted, strays_eq_zero hr,
      hmissed, hsurplus]
    exact ⟨rfl, rfl⟩

/-- The expressions of a text take as many input values as counting finds, if no region holds a
foreign quote. -/
theorem sum_expressionsOf {cs : List Char} (h : QuotesApart cs) :
    takenBy (expressionsOf cs) = placeholderCount cs := by
  obtain ⟨q, rfl⟩ := exists_quoting cs
  obtain ⟨hmissed, hsurplus⟩ := Quoting.missed_of_apart h
  have hbalance := q.placeholderCount_chars
  omega

/-! ### Lines -/

/-- Where a line is cut off before it is read: nowhere, or behind the directive that it starts
with. -/
def CutAt (line : String) (start : Nat) : Prop :=
  start = 0 ∨ ∃ d rest, Directive.split? line.toList = some (d, rest) ∧ start = d.keywordLength

/-- What is left of a line behind its directive has all of its placeholders. -/
theorem CutAt.exists_rest {line : String} {start : Nat} (h : CutAt line start) :
    ∃ rest, Text.dropBytes? start line.toList = some rest ∧
      placeholderCount line.toList = placeholderCount rest := by
  rcases h with rfl | ⟨d, rest, hsplit, rfl⟩
  · exact ⟨line.toList, by rw [Text.dropBytes?], rfl⟩
  · have hbegins := (Directive.split?_eq_some_iff.mp hsplit).begins
    exact ⟨rest, hbegins.dropBytes?_eq, Directive.placeholderCount_rest hsplit⟩

/-! ### Queues -/

/-- Moved by `m` or by `n`, a queue stands at the same position exactly if these differ by a
multiple of the number of its values, as then `c` and `d` do. -/
theorem InputQueue.position_skip_iff {q : InputQueue} (h : q.values ≠ []) {m n c d : Nat}
    (hmn : n + c = m + d) :
    (q.skip m).position = (q.skip n).position ↔ c ≡ d [MOD q.values.length] := by
  rw [position_skip h, position_skip h]
  constructor
  · intro heq
    have hparts : m ≡ n [MOD q.values.length] := Nat.ModEq.add_left_cancel' _ heq
    have hsum : m + d ≡ n + d [MOD q.values.length] := hparts.add_right d
    rw [← hmn] at hsum
    exact hsum.add_left_cancel'
  · intro hcd
    have hsum : n + c ≡ n + d [MOD q.values.length] := hcd.add_left n
    rw [hmn] at hsum
    have hparts : m ≡ n [MOD q.values.length] := hsum.add_right_cancel'
    exact hparts.add_left q.position

/-- **How far counting is from evaluating.**  From the offset on at which a line is read, its
quotes divide it in one way (`Quoting`).  Counting the placeholders of the line finds those of its
expressions, without those that are missed behind an odd number of foreign quotes, and with those
of regions there.  So the two agree exactly if these are the same number, and they do if no region
holds a foreign quote.

For the queue this means the following.  If an engine takes a value for each placeholder that it
reads, then showing the line moves the queue by the placeholders of the expressions, and passing
over the line takes it to the same position exactly if the two numbers are the same up to a
multiple of the number of values. -/
theorem placeholderCount_drift {line : String} {start : Nat} (hcut : CutAt line start) :
    ∃ q : Quoting, Text.dropBytes? start line.toList = some q.chars ∧ ∀ valueOnly,
      let count := placeholderCount line.toList
      let taken := takenBy (expressionsAmong (segmentsFrom line start valueOnly))
      count + q.missed 0 = taken + q.surplus 0 ∧
      (count = taken ↔ q.missed 0 = q.surplus 0) ∧
      (QuotesApart q.chars → count = taken) ∧
      ∀ {σ ρ : Type} [MathEngine σ] (v : Visit) (word : Option BranchWord)
        (p : Page (Recorder σ) ρ),
        let shown := p.showSegments v word q.chars
        (∀ a ∈ shown.2.engine.asked, a.TakesAll σ) → shown.1.isOk = true →
        shown.2.inputs = p.inputs.skip taken ∧
        (p.inputs.values ≠ [] →
          (shown.2.inputs.position = (p.skipInputs count).inputs.position ↔
            q.missed 0 ≡ q.surplus 0 [MOD p.inputs.values.length])) := by
  obtain ⟨rest, hdrop, hcount⟩ := hcut.exists_rest
  obtain ⟨q, rfl⟩ := exists_quoting rest
  refine ⟨q, hdrop, ?_⟩
  intro valueOnly
  dsimp only
  have hes : expressionsAmong (segmentsFrom line start valueOnly) = expressionsOf q.chars := by
    rw [segmentsFrom, hdrop, Option.getD_some, expressionsAmong_segments]
  have hbalance := q.placeholderCount_chars
  rw [hes, hcount]
  refine ⟨hbalance, by omega, fun hapart => (sum_expressionsOf hapart).symm, ?_⟩
  intro σ ρ _ v word p htakes hok
  have hended : ¬∃ e, (p.showSegments v word q.chars).1 = .error e := by
    rintro ⟨e, he⟩
    rw [he] at hok
    cases hok
  have hinputs := ((Page.asks_showSegments v word q.chars p htakes).all hended).2
  refine ⟨hinputs, ?_⟩
  intro hvalues
  rw [hinputs]
  exact InputQueue.position_skip_iff hvalues hbalance

/-- A test behind a heading with an apostrophe. -/
def apostrophe : String :=
  "#else if \"It's x?\" ? + ?"

/-- What follows the word, divided by its quotes. -/
def apostropheBody : Quoting :=
  .closed ⟨[' '], by simp [Quote.ofChar?]⟩ ⟨.heading, "It's x?".toList, by decide⟩
    (.plain ⟨" ? + ?".toList, by simp [Quote.ofChar?]⟩)

/-- A page that has three values to take. -/
def threeValues : Page (Recorder Arithmetic.Engine) SamplePlotter :=
  (Workbench.fresh.recorded.startPass true ["1", "2", "3"]).page

/-- The page after the test was shown. -/
def apostropheShown :
    Except Failure (Option Complex) × Page (Recorder Arithmetic.Engine) SamplePlotter :=
  threeValues.showSegments ⟨true, 1, none, apostrophe.toList⟩ (some .alternative)
    apostropheBody.chars

/-- Counting finds one placeholder, that of the heading, and misses the two of the test, so
passing over the line stays one value behind. -/
theorem placeholderCount_drift_apostrophe :
    placeholderCount apostrophe.toList = 1 ∧
      takenBy (expressionsAmong (segmentsFrom apostrophe 8 false)) = 2 ∧
      apostropheBody.missed 0 = 2 ∧ apostropheBody.surplus 0 = 1 ∧
      apostropheShown.2.inputs = threeValues.inputs.skip 2 ∧
      apostropheShown.2.inputs.position ≠ (threeValues.skipInputs 1).inputs.position := by
  have hsplit : Directive.split? apostrophe.toList =
      some (.branch .alternative, apostropheBody.chars) := by
    decide
  obtain ⟨q, hdrop, hdrift⟩ := placeholderCount_drift (.inr ⟨_, _, hsplit, rfl⟩)
  obtain rfl : q = apostropheBody := by
    apply Quoting.chars_injective
    apply Option.some.inj
    rw [← hdrop]
    decide
  obtain ⟨-, -, -, hqueue⟩ := hdrift false
  have htaken : takenBy (expressionsAmong (segmentsFrom apostrophe 8 false)) = 2 := by
    decide
  have hcount : placeholderCount apostrophe.toList = 1 := by
    decide
  have hasked : apostropheShown.2.engine.asked = [⟨" ? + ?", ⟨["1", "2", "3"], 0⟩⟩] := by
    decide +kernel
  have htakes : ∀ a ∈ apostropheShown.2.engine.asked, a.TakesAll Arithmetic.Engine := by
    rw [hasked]
    intro a ha e
    obtain rfl := List.mem_singleton.mp ha
    exact Arithmetic.queue_parse (fun _ => by decide +kernel) e
  obtain ⟨hinputs, hposition⟩ := hqueue _ _ threeValues htakes (by decide +kernel)
  refine ⟨hcount, htaken, by decide, by decide, ?_, ?_⟩
  · rw [← htaken]
    exact hinputs
  · rw [← hcount]
    exact fun h => absurd ((hposition (by decide)).mp h) (by decide)

/-- A heading with an apostrophe hides the placeholder behind it from counting. -/
theorem placeholderCount_misses :
    CutAt "\"It's\" ?" 0 ∧ placeholderCount "\"It's\" ?".toList = 0 ∧
      takenBy (expressionsAmong (segmentsFrom "\"It's\" ?" 0 false)) = 1 :=
  ⟨.inl rfl, by decide, by decide⟩

end Worksheet
