/-
Reading in turn.

The cursor of a queue wraps late: behind the last value it rests at the end, and only the next
read goes back to the first value.  So the cursor is never past the end, a value that is added
while the cursor rests there is the next one to be read, and as long as no value is added, what
a read gives depends on nothing but how many values were read or passed over before, up to a
multiple of their number.

* `InputQueue.next?` — a read that looks up a value at the cursor and need not find one there;
* `InputQueue.Operation` — what a queue can be asked to do;
* `InputQueue.Bounded.apply` — no operation moves the cursor past the end;
* `InputQueue.foldl_moves` — reading and passing over values is passing over their number;
* `InputQueue.reads_in_turn` — what holds after any operations.
-/
import Worksheet.Proofs.Placeholders

namespace Worksheet

namespace InputQueue

/-- The next value and the queue after it.  A cursor at the end goes back to the first value; then
the value is looked up at the cursor, and nothing here makes sure that there is one. -/
def next? (q : InputQueue) : Option (String × InputQueue) :=
  if q.values = [] then some (placeholder, q)
  else
    let cursor := if q.values.length ≤ q.cursor then 0 else q.cursor
    q.values[cursor]?.map fun value => (value, ⟨q.values, cursor + 1⟩)

/-- Passes over some values by reading them. -/
def skip? : Nat → InputQueue → Option InputQueue
  | 0, q => some q
  | n + 1, q => q.next?.bind fun r => skip? n r.2

/-- What moves the cursor: a read, or passing over some values. -/
inductive Move where
  | read
  | pass (count : Nat)

/-- How many values a move takes. -/
def Move.width : Move → Nat
  | .read => 1
  | .pass count => count

/-- The queue after a move; the value that is read is dropped. -/
def Move.apply (q : InputQueue) : Move → InputQueue
  | .read => q.next.2
  | .pass count => q.skip count

/-- The same move, where values are looked up. -/
def Move.perform? (q : InputQueue) : Move → Option InputQueue
  | .read => q.next?.map Prod.snd
  | .pass count => q.skip? count

/-- How many values some moves take together. -/
def distance (ms : List Move) : Nat :=
  (ms.map Move.width).sum

/-- What a queue can be asked to do. -/
inductive Operation where
  | move (m : Move)
  | push (value : String)
  | clear

/-- The queue after an operation. -/
def Operation.apply (q : InputQueue) : Operation → InputQueue
  | .move m => m.apply q
  | .push value => q.push value
  | .clear => q.clear

/-- The same operation, where values are looked up. -/
def Operation.perform? (q : InputQueue) : Operation → Option InputQueue
  | .move m => m.perform? q
  | .push value => some (q.push value)
  | .clear => some q.clear

/-- The queue of some values after some operations. -/
def after (values : List String) (ops : List Operation) : InputQueue :=
  ops.foldl Operation.apply (ofList values)

variable {q : InputQueue}

/-! ### Looking up values -/

theorem next_of_empty (h : q.values = []) : q.next = (placeholder, q) := by
  rw [next, h]
  rfl

theorem skip_of_empty (h : q.values = []) (n : Nat) : skip n q = q := by
  induction n with
  | zero => rfl
  | succ n ih => rw [skip, next_of_empty h, ih]

/-- A value that is looked up is there. -/
theorem next?_eq (q : InputQueue) : q.next? = some q.next := by
  by_cases h : q.values = []
  · rw [next?, if_pos h, next_of_empty h]
  · have hcursor : (if q.values.length ≤ q.cursor then 0 else q.cursor) = q.position := by
      rw [position]
      split
      · rw [if_neg (by omega)]
      · rw [if_pos (by omega)]
    rw [next?, if_neg h]
    dsimp only
    rw [hcursor, getElem?_position h, next_eq h]
    rfl

theorem skip?_eq (n : Nat) (q : InputQueue) : skip? n q = some (skip n q) := by
  induction n generalizing q with
  | zero => rfl
  | succ n ih =>
    rw [skip?, next?_eq, Option.bind_some, ih]
    rfl

theorem Operation.perform?_eq (op : Operation) (q : InputQueue) :
    op.perform? q = some (op.apply q) := by
  cases op with
  | move m =>
    cases m with
    | read => exact congrArg (Option.map Prod.snd) q.next?_eq
    | pass count => exact skip?_eq count q
  | push => rfl
  | clear => rfl

/-- No operation of a sequence looks up what is not there. -/
theorem foldlM_perform? (ops : List Operation) (q : InputQueue) :
    ops.foldlM Operation.perform? q = some (ops.foldl Operation.apply q) := by
  have happly : Operation.perform? = fun q op => some (op.apply q) :=
    funext₂ fun q op => op.perform?_eq q
  rw [happly]
  exact List.foldlM_pure

/-! ### The cursor -/

/-- The cursor is at one of the values or at the end. -/
def Bounded (q : InputQueue) : Prop :=
  q.cursor ≤ q.values.length

theorem Bounded.next (h : q.Bounded) : q.next.2.Bounded := by
  by_cases hvalues : q.values = []
  · rw [next_of_empty hvalues]
    exact h
  · rw [next_eq hvalues]
    exact position_lt hvalues

theorem Bounded.skip (h : q.Bounded) (n : Nat) : (q.skip n).Bounded := by
  induction n generalizing q with
  | zero => exact h
  | succ n ih => exact ih h.next

/-- No operation moves the cursor past the end. -/
theorem Bounded.apply (h : q.Bounded) (op : Operation) : (op.apply q).Bounded := by
  cases op with
  | move m =>
    cases m with
    | read => exact h.next
    | pass count => exact h.skip count
  | push value =>
    -- the values get longer behind a cursor that stays
    show q.cursor ≤ (q.values ++ [value]).length
    rw [List.length_append]
    exact Nat.le_add_right_of_le h
  | clear => exact Nat.le_refl 0

theorem bounded_after (values : List String) (ops : List Operation) :
    (after values ops).Bounded :=
  List.foldlRecOn (motive := Bounded) ops Operation.apply (Nat.zero_le _)
    fun _ h op _ => h.apply op

theorem Bounded.cursor_of_empty (h : q.Bounded) (hvalues : q.values = []) : q.cursor = 0 := by
  rw [Bounded, hvalues] at h
  exact Nat.le_zero.mp h

/-- A cursor that rests at the end stands for the first value. -/
theorem Bounded.position_eq (h : q.Bounded) : q.position = q.cursor % q.values.length := by
  rw [position]
  split
  · next hlt => rw [Nat.mod_eq_of_lt hlt]
  · next hend =>
    rw [Nat.le_antisymm h (Nat.not_lt.mp hend), Nat.mod_self]

/-! ### Moves -/

/-- Reading and passing over values leads where passing over all of them at once does. -/
theorem foldl_moves (ms : List Move) (q : InputQueue) :
    ms.foldl Move.apply q = q.skip (distance ms) := by
  induction ms generalizing q with
  | nil => rfl
  | cons m ms ih =>
    have hstep : m.apply q = q.skip m.width := by
      cases m with
      | read => rfl
      | pass => rfl
    rw [List.foldl_cons, ih, hstep, ← skip_add]
    rfl

/-- The value behind some others, counted around the end. -/
theorem Bounded.getElem?_cursor (h : q.Bounded) (hvalues : q.values ≠ []) (n : Nat) :
    q.values[(q.cursor + n) % q.values.length]? = some (q.skip n).next.1 := by
  rw [← getElem?_skip hvalues n, position_skip hvalues, h.position_eq, Nat.mod_add_mod]

/-- **A queue is read in turn, around and around.**  After any operations on the queue of some
values, the value that is looked up was there each time and is there at the next read, and the
cursor is not past the end.

Reads and passing over change none of the values.  Passing over some and then some more is passing
over them all, and passing over one is reading it.  From a queue that has values, whatever was read
or passed over, the next read gives the value behind these, counted from the cursor and around the
end: from the first value on, that is the value whose number is how many were taken, modulo how
many there are.  A queue without values gives `?` at each read, and its cursor stays at the
start. -/
theorem reads_in_turn (values : List String) (ops : List Operation) :
    let q := after values ops
    (ops.foldlM Operation.perform? (ofList values) = some q ∧ q.next? = some q.next) ∧
    q.cursor ≤ q.values.length ∧
    (∀ ms : List Move, (ms.foldl Move.apply q).values = q.values) ∧
    (∀ a b, (q.skip a).skip b = q.skip (a + b)) ∧
    q.skip 1 = q.next.2 ∧
    (q.values ≠ [] → ∀ ms : List Move,
      q.values[(q.cursor + distance ms) % q.values.length]? =
        some (ms.foldl Move.apply q).next.1) ∧
    (q.values = [] → ∀ ms : List Move,
      (ms.foldl Move.apply q).next.1 = "?" ∧ (ms.foldl Move.apply q).cursor = 0) := by
  have hbounded := bounded_after values ops
  refine ⟨⟨foldlM_perform? ops _, next?_eq _⟩, hbounded, ?_, ?_, rfl, ?_, ?_⟩
  · intro ms
    rw [foldl_moves, values_skip]
  · intro a b
    rw [skip_add]
  · intro hvalues ms
    rw [foldl_moves]
    exact hbounded.getElem?_cursor hvalues _
  · intro hvalues ms
    rw [foldl_moves, skip_of_empty hvalues, next_of_empty hvalues]
    exact ⟨rfl, hbounded.cursor_of_empty hvalues⟩

/-- Two values are taken, and a third one is added while the cursor rests at the end. -/
def addedAtEnd : List Operation :=
  [.move .read, .move (.pass 1), .push "c"]

/-- The value that was added is read next and the others after it; without values, nothing is. -/
theorem reads_in_turn_addedAtEnd :
    (after ["a", "b"] addedAtEnd).values ≠ [] ∧ (after ["a", "b"] addedAtEnd).cursor = 2 ∧
      (after ["a", "b"] addedAtEnd).next.1 = "c" ∧
      (Move.apply (Move.apply (after ["a", "b"] addedAtEnd) (.pass 4)) .read).next.1 = "b" ∧
      (after ["a", "b"] (addedAtEnd ++ [.clear])).values = [] ∧
      (Move.apply (after ["a", "b"] (addedAtEnd ++ [.clear])) .read).next.1 = "?" := by
  obtain ⟨-, -, -, -, -, hread, -⟩ := reads_in_turn ["a", "b"] addedAtEnd
  obtain ⟨-, -, -, -, -, -, hcleared⟩ := reads_in_turn ["a", "b"] (addedAtEnd ++ [.clear])
  have hvalues : (after ["a", "b"] addedAtEnd).values ≠ [] := by decide
  exact ⟨hvalues, rfl, (Option.some.inj (hread hvalues [])).symm,
    (Option.some.inj (hread hvalues [.pass 4, .read])).symm, rfl, (hcleared rfl [.read]).1⟩

end InputQueue

end Worksheet
