/-
Blank characters, and text without the blanks around it.

A blank is a character with the property White_Space.  Expressions, lines,
directive arguments and input values are all read without the blanks around
them, so the one notion of this module serves every reader.

* `isBlank` — the property, twenty-five characters;
* `trim` — a text without the blanks at its two ends;
* `trim_eq_nil_iff` — nothing is left exactly when every character is blank.
-/

namespace Worksheet.Text

/-- Whether a character is blank, that is, has the property White_Space. -/
def isBlank (c : Char) : Bool :=
  let n := c.toNat
  (9 ≤ n && n ≤ 13) || n == 0x20 || n == 0x85 || n == 0xa0 || n == 0x1680 ||
    (0x2000 ≤ n && n ≤ 0x200a) || n == 0x2028 || n == 0x2029 || n == 0x202f ||
    n == 0x205f || n == 0x3000

/-- The text without its leading blanks. -/
def trimLeft (cs : List Char) : List Char :=
  cs.dropWhile isBlank

/-- The text without its trailing blanks. -/
def trimRight (cs : List Char) : List Char :=
  (cs.reverse.dropWhile isBlank).reverse

/-- The text without the blanks at its two ends. -/
def trim (cs : List Char) : List Char :=
  trimRight (trimLeft cs)

/-! ### Nothing but blanks -/

theorem trimLeft_eq_nil_iff (cs : List Char) :
    trimLeft cs = [] ↔ ∀ c ∈ cs, isBlank c = true := by
  induction cs with
  | nil => simp [trimLeft]
  | cons c cs ih =>
    by_cases hc : isBlank c = true
    · have hskip : trimLeft (c :: cs) = trimLeft cs := by simp [trimLeft, hc]
      rw [hskip, ih]
      simp [hc]
    · simp [trimLeft, hc]

/-- What `trimLeft` leaves is empty or starts with a character that is not
blank. -/
theorem isBlank_head_trimLeft {cs rest : List Char} {c : Char}
    (h : trimLeft cs = c :: rest) : isBlank c = false := by
  induction cs with
  | nil => simp [trimLeft] at h
  | cons a as ih =>
    by_cases ha : isBlank a = true
    · exact ih (by simpa [trimLeft, ha] using h)
    · have hc : a :: as = c :: rest := by simpa [trimLeft, ha] using h
      obtain ⟨rfl, -⟩ := List.cons.inj hc
      simpa using ha

/-- Trimming leaves nothing exactly when every character is blank. -/
theorem trim_eq_nil_iff (cs : List Char) :
    trim cs = [] ↔ ∀ c ∈ cs, isBlank c = true := by
  rw [← trimLeft_eq_nil_iff]
  constructor
  · intro h
    cases hl : trimLeft cs with
    | nil => rfl
    | cons c rest =>
      have hb := isBlank_head_trimLeft hl
      have hall : ∀ x ∈ (trimLeft cs).reverse, isBlank x = true :=
        (trimLeft_eq_nil_iff _).mp (by simpa [trim, trimRight, trimLeft] using h)
      rw [hall c (by simp [hl])] at hb
      cases hb
  · intro h
    simp [trim, trimRight, h]

end Worksheet.Text
