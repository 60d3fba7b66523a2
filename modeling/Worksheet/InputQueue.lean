/-
Values for the placeholders of a sheet.

Placeholders are matched to values by position: every placeholder that a pass
meets takes the next value, whether the line is shown or not.  When the values
are used up, reading starts over with the first.  Without any value, a
placeholder stands for itself.

* `InputQueue.next` — the next value, and the queue after it;
* `InputQueue.skip` — passes over values without using them.
-/

namespace Worksheet

/-- Input values and the position of the next one to read, which rests at the end
until the next read wraps around. -/
structure InputQueue where
  values : List String
  cursor : Nat
  deriving DecidableEq, Repr, Inhabited

namespace InputQueue

/-- What a queue without values hands out. -/
def placeholder : String :=
  "?"

/-- A queue that starts with the first of some values. -/
def ofList (values : List String) : InputQueue :=
  ⟨values, 0⟩

/-- The queue without values. -/
def empty : InputQueue :=
  ofList []

/-- The queue with one more value at its end. -/
def push (value : String) (q : InputQueue) : InputQueue :=
  { q with values := q.values ++ [value] }

/-- Lets go of all values; those that are added afterwards are read from the first one on. -/
def clear (_ : InputQueue) : InputQueue :=
  empty

/-- The position that the next read takes, if there are values at all. -/
def position (q : InputQueue) : Nat :=
  if q.cursor < q.values.length then q.cursor else 0

/-- The next value, and the queue after it. -/
def next (q : InputQueue) : String × InputQueue :=
  match q.values[q.position]? with
  | some value => (value, { q with cursor := q.position + 1 })
  | none => (placeholder, q)

/-- The queue after passing over some values. -/
def skip : Nat → InputQueue → InputQueue
  | 0, q => q
  | n + 1, q => skip n q.next.2

@[simp] theorem values_next (q : InputQueue) : q.next.2.values = q.values := by
  unfold next
  split <;> rfl

@[simp] theorem values_skip (n : Nat) (q : InputQueue) : (skip n q).values = q.values := by
  induction n generalizing q with
  | zero => rfl
  | succ n ih => rw [skip, ih, values_next]

theorem skip_add (m n : Nat) (q : InputQueue) : skip (m + n) q = skip n (skip m q) := by
  induction m generalizing q with
  | zero => rw [Nat.zero_add, skip]
  | succ m ih => rw [Nat.succ_add, skip, skip, ih]

end InputQueue

end Worksheet
