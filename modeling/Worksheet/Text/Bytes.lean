/-
Lengths and offsets of text in bytes.

Offsets into a line are counted in bytes of its UTF-8 form.  `dropBytes?` cuts a
text at such an offset; an offset inside a character or beyond the end cuts
nowhere.  `dropBytes?_eq_some_iff` says that this is a split of the text whose
first part has the given length.
-/

namespace Worksheet.Text

/-- The number of bytes of a text in UTF-8. -/
def byteLength : List Char → Nat
  | [] => 0
  | c :: cs => c.utf8Size + byteLength cs

/-- What follows the first `n` bytes; nothing when that offset lies inside a
character or beyond the end. -/
def dropBytes? : Nat → List Char → Option (List Char)
  | 0, cs => some cs
  | _ + 1, [] => none
  | n + 1, c :: cs =>
    if c.utf8Size ≤ n + 1 then dropBytes? (n + 1 - c.utf8Size) cs else none

theorem dropBytes?_byteLength_append (xs ys : List Char) :
    dropBytes? (byteLength xs) (xs ++ ys) = some ys := by
  induction xs with
  | nil => simp [byteLength, dropBytes?]
  | cons c cs ih =>
    have hc : 0 < c.utf8Size := c.utf8Size_pos
    obtain ⟨n, hn⟩ : ∃ n, c.utf8Size + byteLength cs = n + 1 :=
      ⟨c.utf8Size + byteLength cs - 1, by omega⟩
    have hle : c.utf8Size ≤ n + 1 := by omega
    have hsub : n + 1 - c.utf8Size = byteLength cs := by omega
    simp [byteLength, hn, dropBytes?, hle, hsub, ih]

/-- Cutting at an offset succeeds exactly when the text is a part of that many
bytes followed by the rest. -/
theorem dropBytes?_eq_some_iff (n : Nat) (cs rest : List Char) :
    dropBytes? n cs = some rest ↔ ∃ before, cs = before ++ rest ∧ byteLength before = n := by
  constructor
  · intro h
    induction cs generalizing n with
    | nil =>
      cases n with
      | zero =>
        obtain rfl : [] = rest := by simpa [dropBytes?] using h
        exact ⟨[], rfl, rfl⟩
      | succ n => simp [dropBytes?] at h
    | cons c cs ih =>
      cases n with
      | zero =>
        obtain rfl : c :: cs = rest := by simpa [dropBytes?] using h
        exact ⟨[], rfl, rfl⟩
      | succ n =>
        by_cases hc : c.utf8Size ≤ n + 1
        · obtain ⟨before, rfl, hb⟩ := ih _ (by simpa [dropBytes?, hc] using h)
          exact ⟨c :: before, rfl, by simp [byteLength, hb]; omega⟩
        · simp [dropBytes?, hc] at h
  · rintro ⟨before, rfl, rfl⟩
    exact dropBytes?_byteLength_append before rest

end Worksheet.Text
