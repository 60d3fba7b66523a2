/-
Lines and their breaks.

Cutting a text into lines and putting lines together are inverse to each other: a text is made
up of the lines it is cut into, and lines that could be those of a text are what their text is
cut into.  So one line of a text can be replaced and all others left as they are, with the
breaks between them.

* `Text.Broken` — lines and breaks that could be those of a text;
* `Text.brokenLines_joinBreaks` — they are the lines of the text they make up;
* `Sheet.lines_replaceLine` — a sheet with one line replaced.
-/
import Worksheet.Sheet.Line

namespace Worksheet

namespace Text

/-- No line ends in a text. -/
def Unbroken (text : List Char) : Prop :=
  '\r' ∉ text ∧ '\n' ∉ text

/-- Lines and breaks that could be those of a text: no line ends early, only the last one can
lack a break, and no line feed could belong to the carriage return before it. -/
inductive Broken : List (List Char × Option LineBreak) → Prop
  | nil : Broken []
  | last {line : List Char} (hline : Unbroken line) (hne : line ≠ []) : Broken [(line, none)]
  | broken {line : List Char} {ending : LineBreak} {rest : List (List Char × Option LineBreak)}
    (hline : Unbroken line)
    (hends : ending = .carriageReturn → rest.head? ≠ some ([], some .lineFeed))
    (hrest : Broken rest) : Broken ((line, some ending) :: rest)

/-! ### The lines of a text -/

theorem unbroken_nil : Unbroken [] :=
  ⟨List.not_mem_nil, List.not_mem_nil⟩

theorem unbroken_cons {c : Char} {text : List Char} (hr : c ≠ '\r') (hn : c ≠ '\n')
    (h : Unbroken text) : Unbroken (c :: text) := by
  obtain ⟨htr, htn⟩ := h
  exact ⟨by simp [hr.symm, htr], by simp [hn.symm, htn]⟩

/-- A first line that is an empty one before a line feed starts with it. -/
theorem eq_lineFeed_of_head? {cs : List Char}
    (h : (brokenLines cs).head? = some ([], some .lineFeed)) : ∃ rest, cs = '\n' :: rest := by
  revert h
  fun_cases brokenLines cs with
  | case4 rest => exact fun _ => ⟨rest, rfl⟩
  | case6 c rest _ _ _ line ending lines hrest =>
    intro h
    simp at h
  | _ =>
    intro h
    simp at h

/-- The lines of every text could be those of a text. -/
theorem broken_brokenLines (cs : List Char) : Broken (brokenLines cs) := by
  fun_induction brokenLines cs with
  | case1 => exact .nil
  | case2 rest ih => exact .broken unbroken_nil (fun h => by cases h) ih
  | case3 rest hfeed ih =>
    refine .broken unbroken_nil ?_ ih
    intro _ hhead
    obtain ⟨rest', hrest⟩ := eq_lineFeed_of_head? hhead
    exact hfeed rest' hrest
  | case4 rest ih => exact .broken unbroken_nil (fun h => by cases h) ih
  | case5 c rest hboth hr hn h ih =>
    exact .last (unbroken_cons hr hn unbroken_nil) (List.cons_ne_nil c [])
  | case6 c rest hboth hr hn line ending lines h ih =>
    rw [h] at ih
    cases ih with
    | last hline hne => exact .last (unbroken_cons hr hn hline) (List.cons_ne_nil c line)
    | broken hline hends hrest => exact .broken (unbroken_cons hr hn hline) hends hrest

/-! ### The text of some lines -/

/-- A character that is no break belongs to the first line. -/
theorem brokenLines_cons {c : Char} (hr : c ≠ '\r') (hn : c ≠ '\n') (rest : List Char) :
    brokenLines (c :: rest) =
      match brokenLines rest with
      | [] => [([c], none)]
      | (line, ending) :: lines => (c :: line, ending) :: lines := by
  have hboth : ∀ tail, c = '\r' → rest = '\n' :: tail → False := fun _ h => absurd h hr
  exact brokenLines.eq_5 c rest hboth hr hn

/-- Text without breaks before the end of a line belongs to that line. -/
theorem brokenLines_append {text rest line : List Char} {ending : Option LineBreak}
    {lines : List (List Char × Option LineBreak)} (h : Unbroken text)
    (hrest : brokenLines rest = (line, ending) :: lines) :
    brokenLines (text ++ rest) = (text ++ line, ending) :: lines := by
  induction text with
  | nil => exact hrest
  | cons c text ih =>
    obtain ⟨⟨hr, htr⟩, hn, htn⟩ : ('\r' ≠ c ∧ '\r' ∉ text) ∧ '\n' ≠ c ∧ '\n' ∉ text := by
      simpa [Unbroken] using h
    rw [List.cons_append, brokenLines_cons (Ne.symm hr) (Ne.symm hn), ih ⟨htr, htn⟩]
    rfl

/-- Text without breaks is one line. -/
theorem brokenLines_of_unbroken {text : List Char} (h : Unbroken text) (hne : text ≠ []) :
    brokenLines text = [(text, none)] := by
  induction text with
  | nil => exact absurd rfl hne
  | cons c text ih =>
    obtain ⟨⟨hr, htr⟩, hn, htn⟩ : ('\r' ≠ c ∧ '\r' ∉ text) ∧ '\n' ≠ c ∧ '\n' ∉ text := by
      simpa [Unbroken] using h
    rw [brokenLines_cons (Ne.symm hr) (Ne.symm hn)]
    rcases text with _ | ⟨d, text⟩
    · rfl
    · rw [ih ⟨htr, htn⟩ (List.cons_ne_nil d text)]

/-- A break ends an empty line, unless it goes on in what follows. -/
theorem brokenLines_break {ending : LineBreak} {rest : List Char}
    (h : ending = .carriageReturn → ∀ tail, rest ≠ '\n' :: tail) :
    brokenLines (ending.chars ++ rest) = ([], some ending) :: brokenLines rest := by
  cases ending with
  | lineFeed => rfl
  | both => rfl
  | carriageReturn =>
    show brokenLines ('\r' :: rest) = _
    rw [brokenLines]
    exact h rfl

/-- Lines that could be those of a text are the lines of the text they make up. -/
theorem brokenLines_joinBreaks {lines : List (List Char × Option LineBreak)}
    (h : Broken lines) : brokenLines (joinBreaks lines) = lines := by
  induction h with
  | nil => rfl
  | @last line hline hne =>
    show brokenLines (line ++ [] ++ []) = _
    rw [List.append_nil, List.append_nil]
    exact brokenLines_of_unbroken hline hne
  | @broken line ending rest hline hends _ ih =>
    have hbreak : brokenLines (ending.chars ++ joinBreaks rest) = ([], some ending) :: rest := by
      rw [brokenLines_break, ih]
      intro hreturn tail htail
      apply hends hreturn
      rw [← ih, htail]
      rfl
    show brokenLines (line ++ ending.chars ++ joinBreaks rest) = _
    rw [List.append_assoc, brokenLines_append hline hbreak, List.append_nil]

/-! ### One line replaced -/

/-- A text with some line replaced, and the breaks as they were. -/
def replaceLine (k : Nat) (line : List Char) (cs : List Char) : List Char :=
  joinBreaks ((brokenLines cs).modify k fun old => (line, old.2))

/-- A line that is not empty can be put in the place of another. -/
theorem Broken.modify {lines : List (List Char × Option LineBreak)} (h : Broken lines)
    {line : List Char} (hline : Unbroken line) (hne : line ≠ []) (k : Nat) :
    Broken (lines.modify k fun old => (line, old.2)) := by
  induction h generalizing k with
  | nil =>
    rw [List.modify_nil]
    exact .nil
  | last hlast hlastne =>
    cases k with
    | zero => exact .last hline hne
    | succ k =>
      rw [List.modify_succ_cons, List.modify_nil]
      exact .last hlast hlastne
  | @broken old ending rest hold hends hrest ih =>
    cases k with
    | zero => exact .broken hline hends hrest
    | succ k =>
      rw [List.modify_succ_cons]
      refine .broken hold ?_ (ih k)
      intro hreturn hhead
      -- the line after this one is the old one, or the new one, which is not empty
      rcases rest with _ | ⟨next, rest⟩
      · rw [List.modify_nil] at hhead
        cases hhead
      cases k with
      | zero =>
        have hempty : line = [] := congrArg Prod.fst (Option.some.inj hhead)
        exact hne hempty
      | succ k => exact hends hreturn hhead

theorem splitLines_replaceLine {line : List Char} (hline : Unbroken line) (hne : line ≠ [])
    (k : Nat) (cs : List Char) :
    splitLines (replaceLine k line cs) = (splitLines cs).set k line := by
  rw [splitLines, splitLines, replaceLine,
    brokenLines_joinBreaks ((broken_brokenLines cs).modify hline hne k)]
  generalize brokenLines cs = lines
  induction lines generalizing k with
  | nil => rw [List.modify_nil]; rfl
  | cons old rest ih =>
    cases k with
    | zero => rfl
    | succ k =>
      rw [List.modify_succ_cons, List.map_cons, List.map_cons, List.set_cons_succ, ih k]

end Text

namespace Sheet

/-- A source with some line replaced. -/
def replaceLine (k : Nat) (line source : String) : String :=
  .ofList (Text.replaceLine k line.toList source.toList)

/-- A sheet with one line replaced has the other lines as they were. -/
theorem lines_replaceLine {line : String} (hline : Text.Unbroken line.toList)
    (hne : line.toList ≠ []) (k : Nat) (source : String) :
    lines (replaceLine k line source) =
      (lines source).setIfInBounds k (.ofChars line.toList) := by
  rw [lines, lines, replaceLine, String.toList_ofList, Text.splitLines_replaceLine hline hne,
    List.map_set, List.setIfInBounds_toArray]

end Sheet

end Worksheet
