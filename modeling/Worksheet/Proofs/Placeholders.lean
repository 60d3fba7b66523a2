/-
How many input values a line takes.

A line that is passed over moves the queue by the number of placeholders outside its quotes
(`placeholderCount`), and a line that is evaluated moves it by the placeholders of its
expressions.

* `InputQueue.position_skip` — positions count up and start over behind the last value;
* `expressionsAmong_segments` — the expressions of a text, among its segments;
* `Line.placeholderCount_chars` — a branch word takes no input values.
-/
import Worksheet.InputQueue
import Worksheet.Proofs.Recognizing
import Worksheet.Segment
import Worksheet.Sheet.Line
import Mathlib.Algebra.GroupWithZero.Nat
import Mathlib.Data.List.Basic

namespace Worksheet

/-! ### Positions in the queue -/

namespace InputQueue

variable {q : InputQueue}

theorem position_lt (h : q.values ≠ []) : q.position < q.values.length := by
  have hpos : 0 < q.values.length := List.length_pos_iff.mpr h
  rw [position]
  split
  · assumption
  · exact hpos

/-- The next value is the one at the position of the queue. -/
theorem next_eq (h : q.values ≠ []) :
    q.next = (q.values.get ⟨q.position, position_lt h⟩, ⟨q.values, q.position + 1⟩) := by
  rw [next, List.getElem?_eq_getElem (position_lt h)]
  rfl

theorem getElem?_position (h : q.values ≠ []) : q.values[q.position]? = some q.next.1 := by
  rw [next_eq h]
  exact List.getElem?_eq_getElem _

theorem position_next (h : q.values ≠ []) :
    q.next.2.position = (q.position + 1) % q.values.length := by
  have hlt := position_lt h
  rw [next_eq h]
  show (if q.position + 1 < q.values.length then q.position + 1 else 0) = _
  split
  · next hnext => rw [Nat.mod_eq_of_lt hnext]
  · next hnext =>
    rw [show q.position + 1 = q.values.length by omega, Nat.mod_self]

/-- Passing over values moves the position by their number, around the end. -/
theorem position_skip (h : q.values ≠ []) (n : Nat) :
    (skip n q).position = (q.position + n) % q.values.length := by
  induction n generalizing q with
  | zero =>
    rw [Nat.add_zero, Nat.mod_eq_of_lt (position_lt h)]
    rfl
  | succ n ih =>
    have hnext : q.next.2.values ≠ [] := by
      rw [values_next]
      exact h
    rw [skip, ih hnext, values_next, position_next h, Nat.mod_add_mod]
    congr 1
    omega

/-- The value behind some others is the one at the position where passing over these leads. -/
theorem getElem?_skip (h : q.values ≠ []) (n : Nat) :
    q.values[(q.skip n).position]? = some (q.skip n).next.1 := by
  have hskip : (q.skip n).values ≠ [] := by
    rw [values_skip]
    exact h
  rw [← getElem?_position hskip, values_skip]

end InputQueue

/-! ### Expressions of a text -/

/-- The expressions of a text: what its shown runs outside quotes hold. -/
def expressionsOf (cs : List Char) : List (List Char) :=
  ((runs cs).filter fun r => r.isShown && r.quote.isNone).map Run.chars

/-- No quoted region of a text holds a quote of the other kind. -/
def QuotesApart (cs : List Char) : Prop :=
  ∀ r ∈ runs cs, r.quote.isSome → ∀ c ∈ r.chars, Quote.ofChar? c = none

instance (cs : List Char) : Decidable (QuotesApart cs) :=
  have (r : Run) : Decidable (∀ c ∈ r.chars, Quote.ofChar? c = none) :=
    List.decidableBAll _ r.chars
  inferInstanceAs (Decidable (∀ r ∈ runs cs, r.quote.isSome →
    ∀ c ∈ r.chars, Quote.ofChar? c = none))

/-- The number of placeholders in some expressions. -/
def takenBy (es : List (List Char)) : Nat :=
  (es.map (List.count '?')).sum

@[simp] theorem takenBy_nil : takenBy [] = 0 := rfl

@[simp] theorem takenBy_cons (e : List Char) (es : List (List Char)) :
    takenBy (e :: es) = e.count '?' + takenBy es := by
  simp [takenBy]

theorem isBlank_placeholder : Text.isBlank '?' = false := by
  decide

/-! ### Expressions among segments -/

/-- The expressions among some segments. -/
def expressionsAmong : List Segment → List (List Char)
  | [] => []
  | s :: rest =>
    if s.kind = .expression then s.chars :: expressionsAmong rest else expressionsAmong rest

/-- Only a run outside quotes becomes an expression, and as it stands. -/
theorem expressionsAmong_cons (valueOnly first : Bool) (r : Run) (rest : List Segment) :
    expressionsAmong (r.segment valueOnly first :: rest) =
      if r.quote.isNone then r.chars :: expressionsAmong rest else expressionsAmong rest := by
  rw [Run.segment]
  rcases r.quote with _ | _ | _
  · rfl
  · dsimp only [expressionsAmong]
    split
    · rfl
    · rfl
  · rfl

theorem expressionsAmong_map (valueOnly first : Bool) (rs : List Run) :
    expressionsAmong (rs.map (Run.segment valueOnly first)) =
      (rs.filter fun r => r.quote.isNone).map Run.chars := by
  induction rs with
  | nil => rfl
  | cons r rs ih =>
    rw [List.map_cons, expressionsAmong_cons, ih, List.filter_cons]
    split
    · rfl
    · rfl

/-- The expressions among the segments of a text are its expressions, however the quoted
parts are padded. -/
theorem expressionsAmong_segments (valueOnly : Bool) (cs : List Char) :
    expressionsAmong (segments valueOnly cs) = expressionsOf cs := by
  have hshown : expressionsOf cs =
      (((runs cs).filter Run.isShown).filter fun r => r.quote.isNone).map Run.chars := by
    rw [expressionsOf, List.filter_filter]
    congr 2
    funext r
    exact Bool.and_comm _ _
  rw [hshown, segments]
  rcases (runs cs).filter Run.isShown with _ | ⟨r, rs⟩
  · rfl
  · dsimp only
    rw [expressionsAmong_cons, expressionsAmong_map, List.filter_cons]
    split
    · rfl
    · rfl

/-! ### The body of a line -/

/-- What a line shows in segments: the content, or what follows a branch word. -/
def Line.body (l : Line) : List Char :=
  match l.form with
  | .branch _ rest => rest
  | .content => l.chars
  | _ => []

/-- How many placeholders there are on a line. -/
def Line.placeholders (l : Line) : Nat :=
  placeholderCount l.body

/-- How many placeholders there are on the lines before a position. -/
def Sheet.placeholdersBefore (lines : Array Line) (i : Nat) : Nat :=
  ((lines.toList.take i).map Line.placeholders).sum

theorem Sheet.placeholdersBefore_succ {lines : Array Line} {i : Nat} {l : Line}
    (hl : lines[i]? = some l) :
    placeholdersBefore lines (i + 1) = placeholdersBefore lines i + l.placeholders := by
  have hget : lines.toList[i]? = some l := by rw [Array.getElem?_toList, hl]
  unfold placeholdersBefore
  rw [List.take_add_one, hget]
  simp

/-- What stands before the rest of a line has no part in counting, if it holds neither
quotes nor placeholders. -/
theorem countFrom_append {before : List Char} (h : ∀ c ∈ before, Quote.ofChar? c = none ∧ c ≠ '?')
    (inside : Bool) (rest : List Char) :
    countFrom inside (before ++ rest) = countFrom inside rest := by
  induction before with
  | nil => rfl
  | cons c cs ih =>
    obtain ⟨hquote, hmark⟩ := h c (List.mem_cons_self ..)
    rw [List.cons_append, countFrom, hquote, ih fun d hd => h d (List.mem_cons_of_mem c hd)]
    simp [hmark]

/-- A directive holds neither quotes nor placeholders. -/
theorem plain_keyword (d : Directive) {c : Char} (h : c.toLower ∈ d.keyword.toList) :
    Quote.ofChar? c = none ∧ c ≠ '?' := by
  have hall : ∀ d ∈ Directive.all,
      (d.keyword.toList.all fun c => c ≠ '?' ∧ c ≠ '\'' ∧ c ≠ '"') = true := by
    decide
  have hplain := hall d d.mem_all
  obtain ⟨hmark, htext, hheading⟩ := of_decide_eq_true (List.all_eq_true.mp hplain _ h)
  constructor
  · rw [Quote.ofChar?, if_neg, if_neg]
    · rintro rfl
      exact hheading rfl
    · rintro rfl
      exact htext rfl
  · rintro rfl
    exact hmark rfl

/-- What follows a directive is all of a text that takes input values. -/
theorem Directive.placeholderCount_rest {cs rest : List Char} {d : Directive}
    (h : split? cs = some (d, rest)) : placeholderCount cs = placeholderCount rest := by
  obtain ⟨before, rfl, hword⟩ := split?_eq_some h
  refine countFrom_append ?_ false rest
  intro c hc
  apply plain_keyword d
  rw [← hword]
  exact List.mem_map_of_mem hc

namespace Line

/-- What follows a branch word is all of the line that takes input values. -/
theorem placeholderCount_rest {cs rest : List Char} {word : BranchWord}
    (h : LineForm.ofChars cs = .branch word rest) :
    placeholderCount cs = placeholderCount rest := by
  have hsplit : Directive.split? cs = some (.branch word, rest) := by
    unfold LineForm.ofChars at h
    split at h
    · cases h
    · cases h
    · cases h
    · cases h
    · next hs =>
      cases h
      exact hs
    · split at h
      · cases h
      · cases h
  exact Directive.placeholderCount_rest hsplit

/-- The lines of a source: they were read from their text. -/
theorem placeholderCount_chars {source : String} {l : Line} (hl : l ∈ (Sheet.lines source).toList)
    (hform : l.form = .content ∨ ∃ word rest, l.form = .branch word rest) :
    placeholderCount l.chars = l.placeholders := by
  unfold Sheet.lines at hl
  obtain ⟨raw, -, rfl⟩ := List.mem_map.mp hl
  unfold placeholders body
  rcases hform with h | ⟨word, rest, h⟩
  · rw [h]
  · rw [h]
    exact placeholderCount_rest h

theorem placeholderCount_branch {source : String} {l : Line}
    (hl : l ∈ (Sheet.lines source).toList) {word : BranchWord} {rest : List Char}
    (hform : l.form = .branch word rest) : placeholderCount l.chars = placeholderCount rest := by
  rw [placeholderCount_chars hl (.inr ⟨word, rest, hform⟩), placeholders, body, hform]

end Line

end Worksheet
