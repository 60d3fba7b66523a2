/-
Every well-nested sheet of plain lines and blocks is a script.

The lines of a script are blank lines, content, branch words and loop words, where every
condition is a single expression, and `#else` and `#end if` stand alone.  Reading such a
sheet from the top, the blocks around each position (`Sheet.around`) say which part of a
script begins there, and where it ends.

* `Line.InScript` — the lines that scripts are made of;
* `Sheet.exists_script` — a well-nested sheet of such lines is a script.
-/
import Worksheet.Proofs.Nesting
import Worksheet.Proofs.Script

namespace Worksheet

/-- Whether some text is an expression that stands alone. -/
def IsExpression (cs : List Char) : Prop :=
  Text.trim cs ≠ [] ∧ ∀ c ∈ cs, Quote.ofChar? c = none

instance (cs : List Char) : Decidable (IsExpression cs) :=
  have : Decidable (∀ c ∈ cs, Quote.ofChar? c = none) := List.decidableBAll _ cs
  inferInstanceAs (Decidable (_ ∧ ∀ c ∈ cs, Quote.ofChar? c = none))

/-- The forms of the lines that scripts are made of. -/
def LineForm.InScript : LineForm → Prop
  | .blank => True
  | .content => True
  | .loop _ _ => True
  | .branch .opening rest => IsExpression rest
  | .branch .alternative rest => IsExpression rest
  | .branch .otherwise rest => rest = []
  | .branch .closing rest => rest = []
  | _ => False

instance (form : LineForm) : Decidable form.InScript :=
  match form with
  | .blank => inferInstanceAs (Decidable True)
  | .content => inferInstanceAs (Decidable True)
  | .loop _ _ => inferInstanceAs (Decidable True)
  | .branch .opening rest => inferInstanceAs (Decidable (IsExpression rest))
  | .branch .alternative rest => inferInstanceAs (Decidable (IsExpression rest))
  | .branch .otherwise rest => inferInstanceAs (Decidable (rest = []))
  | .branch .closing rest => inferInstanceAs (Decidable (rest = []))
  | .toggle _ => inferInstanceAs (Decidable False)
  | .round _ => inferInstanceAs (Decidable False)
  | .plot _ => inferInstanceAs (Decidable False)

/-- Whether a line ends the part of a script before it. -/
def LineForm.EndsPart : LineForm → Prop
  | .branch .alternative _ => True
  | .branch .otherwise _ => True
  | .branch .closing _ => True
  | .loop .closing _ => True
  | _ => False

namespace LineForm.EndsPart

variable {form : LineForm} {index : Nat} {outer after : List Opener}

/-- Inside a loop, only its end ends a part. -/
theorem of_loop {line : Nat} (he : form.EndsPart)
    (hm : Opener.meet index form (.loop line :: outer) = some after) :
    (∃ argument, form = .loop .closing argument) ∧ after = outer := by
  cases form with
  | loop word argument =>
    cases word with
    | closing => exact ⟨⟨argument, rfl⟩, (Option.some.inj hm).symm⟩
    | _ => exact he.elim
  | branch word rest =>
    cases word with
    | opening => exact he.elim
    | _ => cases hm
  | _ => exact he.elim

/-- Behind the `#else` of a group, only its end ends a part. -/
theorem of_last (he : form.EndsPart)
    (hm : Opener.meet index form (.group true :: outer) = some after) :
    (∃ rest, form = .branch .closing rest) ∧ after = outer := by
  cases form with
  | loop word argument =>
    cases word with
    | closing => cases hm
    | _ => exact he.elim
  | branch word rest =>
    cases word with
    | closing => exact ⟨⟨rest, rfl⟩, (Option.some.inj hm).symm⟩
    | opening => exact he.elim
    | _ => cases hm
  | _ => exact he.elim

/-- Outside of all blocks, no line that fits ends a part. -/
theorem ne_nil {around : List Opener} (he : form.EndsPart)
    (hm : Opener.meet index form around = some after) : around ≠ [] := by
  rintro rfl
  cases form with
  | loop word argument =>
    cases word with
    | closing => cases hm
    | _ => exact he
  | branch word rest =>
    cases word with
    | opening => exact he
    | _ => cases hm
  | _ => exact he

end LineForm.EndsPart

namespace Sheet

variable {lines : Array Line}

theorem drop_eq_cons {i : Nat} {l : Line} (hl : lines[i]? = some l) :
    lines.toList.drop i = l :: lines.toList.drop (i + 1) := by
  rw [← Array.getElem?_toList] at hl
  obtain ⟨hi, rfl⟩ := List.getElem?_eq_some_iff.mp hl
  exact List.drop_eq_getElem_cons hi

/-- In a well-nested sheet, a part that ends inside a block is followed by a line that ends
it. -/
def PartEnds (lines : Array Line) (j : Nat) : Prop :=
  j = lines.size ∨ ∃ l, lines[j]? = some l ∧ l.form.EndsPart

theorem PartEnds.line (hn : WellNested lines) {j : Nat} {o : Opener} {outer : List Opener}
    (h : PartEnds lines j) (ha : around lines j = some (o :: outer)) :
    ∃ l after, lines[j]? = some l ∧ l.form.EndsPart ∧ around lines (j + 1) = some after ∧
      Opener.meet j l.form (o :: outer) = some after := by
  rcases h with rfl | ⟨l, hl, he⟩
  · rw [hn] at ha
    cases ha
  · obtain ⟨blocks, after, hb, hafter, hm⟩ := hn.meet hl
    rw [ha] at hb
    obtain rfl := Option.some.inj hb
    exact ⟨l, after, hl, he, hafter, hm⟩

mutual

/-- From every position on, a sheet begins with a script, up to the end of the part around
that position. -/
theorem exists_script_from (hn : WellNested lines) (hs : ∀ l ∈ lines.toList, l.form.InScript)
    (i : Nat) (hi : i ≤ lines.size) {blocks : List Opener} (ha : around lines i = some blocks) :
    ∃ b j, i ≤ j ∧ j ≤ lines.size ∧
      lines.toList.drop i = Script.lines b ++ lines.toList.drop j ∧
      around lines j = some blocks ∧ PartEnds lines j := by
  rcases Nat.lt_or_eq_of_le hi with hlt | rfl
  swap
  · exact ⟨.done, lines.size, Nat.le_refl _, Nat.le_refl _, rfl, ha, .inl rfl⟩
  obtain ⟨⟨text, form⟩, hl⟩ : ∃ l, lines[i]? = some l := ⟨_, Array.getElem?_eq_getElem hlt⟩
  obtain ⟨blocks', after, hb, hafter, hm⟩ := hn.meet hl
  rw [ha] at hb
  obtain rfl := Option.some.inj hb
  have hin : form.InScript := hs _ (Array.mem_toList_iff.mpr (Array.mem_of_getElem? hl))
  have hdrop := drop_eq_cons hl
  have hends : form.EndsPart → ∃ b j, i ≤ j ∧ j ≤ lines.size ∧
      lines.toList.drop i = Script.lines b ++ lines.toList.drop j ∧
      around lines j = some blocks ∧ PartEnds lines j :=
    fun he => ⟨.done, i, Nat.le_refl _, hi, rfl, ha, .inr ⟨_, hl, he⟩⟩
  -- a line that opens no block is followed by the rest of the part
  have honward : ∀ step : Script → Script, after = blocks →
      (∀ b, (step b).lines = ⟨text, form⟩ :: b.lines) → ∃ b j, i ≤ j ∧ j ≤ lines.size ∧
        lines.toList.drop i = Script.lines b ++ lines.toList.drop j ∧
        around lines j = some blocks ∧ PartEnds lines j := by
    rintro step rfl hstep
    obtain ⟨b, j, hle, hj, hd, haj, he⟩ := exists_script_from hn hs (i + 1) hlt hafter
    refine ⟨step b, j, Nat.le_of_succ_le hle, hj, ?_, haj, he⟩
    rw [hdrop, hd, hstep]
    rfl
  cases form with
  | blank => exact honward (.blank text) (Option.some.inj hm).symm fun _ => rfl
  | content => exact honward (.content text) (Option.some.inj hm).symm fun _ => rfl
  | loop word argument =>
    cases word with
    | leave => exact honward (.leave text argument) (Option.some.inj hm).symm fun _ => rfl
    | next => exact honward (.next text argument) (Option.some.inj hm).symm fun _ => rfl
    | closing => exact hends trivial
    | opening =>
      obtain rfl := Option.some.inj hm
      obtain ⟨body, j, hle, hj, hd, haj, he⟩ := exists_script_from hn hs (i + 1) hlt hafter
      obtain ⟨⟨endText, endForm⟩, after, hlj, hendj, hafterj, hmj⟩ := he.line hn haj
      have hjlt : j < lines.size := (Array.getElem?_eq_some_iff.mp hlj).1
      obtain ⟨⟨endArgument, rfl⟩, rfl⟩ : (∃ argument, endForm = .loop .closing argument) ∧
          after = blocks := hendj.of_loop hmj
      obtain ⟨rest, k, hle', hk, hd', hak, he'⟩ := exists_script_from hn hs (j + 1) hjlt hafterj
      refine ⟨.loop text argument body endText endArgument rest, k, by omega, hk, ?_, hak, he'⟩
      rw [hdrop, hd, drop_eq_cons hlj, hd']
      simp [Script.lines]
  | branch word rest =>
    cases word with
    | alternative => exact hends trivial
    | otherwise => exact hends trivial
    | closing => exact hends trivial
    | opening =>
      obtain rfl := Option.some.inj hm
      -- the body, the further branches up to the end of the group, and what follows it
      obtain ⟨body, j, hle, hj, hd, haj, he⟩ := exists_script_from hn hs (i + 1) hlt hafter
      obtain ⟨others, k, hlt', hk, hd', hak⟩ := exists_alternatives_from hn hs j haj he
      obtain ⟨onward, m, hle'', hm', hd'', ham, he''⟩ := exists_script_from hn hs k hk hak
      refine ⟨.group text ⟨rest, hin.1, hin.2⟩ body others onward, m, by omega, hm', ?_, ham, he''⟩
      rw [hdrop, hd, hd', hd'']
      simp [Script.lines]
  | toggle t => exact hin.elim
  | round argument => exact hin.elim
  | plot kind => exact hin.elim
termination_by lines.size - i

/-- From a position that ends the body of a branch, a sheet goes on with the further
branches of the group. -/
theorem exists_alternatives_from (hn : WellNested lines)
    (hs : ∀ l ∈ lines.toList, l.form.InScript) (i : Nat) {last : Bool}
    {blocks : List Opener} (ha : around lines i = some (.group last :: blocks))
    (he : PartEnds lines i) :
    ∃ a j, i < j ∧ j ≤ lines.size ∧
      lines.toList.drop i = Alternatives.lines a ++ lines.toList.drop j ∧
      around lines j = some blocks := by
  obtain ⟨⟨text, form⟩, after, hl, hend, hafter, hm⟩ := he.line hn ha
  have hlt : i < lines.size := (Array.getElem?_eq_some_iff.mp hl).1
  have hin : form.InScript := hs _ (Array.mem_toList_iff.mpr (Array.mem_of_getElem? hl))
  have hdrop := drop_eq_cons hl
  cases form with
  | loop word argument =>
    cases word with
    | closing => cases hm
    | _ => exact hend.elim
  | branch word rest =>
    cases word with
    | opening => exact hend.elim
    | closing =>
      obtain rfl := Option.some.inj hm
      obtain rfl : rest = [] := hin
      exact ⟨.closing text, i + 1, Nat.lt_succ_self i, hlt, hdrop, hafter⟩
    | otherwise =>
      obtain ⟨outer, h, rfl⟩ := Opener.meet_otherwise hm
      obtain rfl := (List.cons.inj h).2
      obtain rfl : rest = [] := hin
      obtain ⟨body, j, hle, hj, hd, haj, he'⟩ := exists_script_from hn hs (i + 1) hlt hafter
      obtain ⟨⟨endText, endForm⟩, after, hlj, hendj, hafterj, hmj⟩ := he'.line hn haj
      have hjlt : j < lines.size := (Array.getElem?_eq_some_iff.mp hlj).1
      obtain ⟨⟨rest, rfl⟩, rfl⟩ : (∃ rest, endForm = .branch .closing rest) ∧
          after = blocks := hendj.of_last hmj
      obtain rfl : rest = [] := hs _ (Array.mem_toList_iff.mpr (Array.mem_of_getElem? hlj))
      refine ⟨.otherwise text body endText, j + 1, by omega, hjlt, ?_, hafterj⟩
      rw [hdrop, hd, drop_eq_cons hlj]
      simp [Alternatives.lines]
    | alternative =>
      obtain ⟨outer, h, rfl⟩ := Opener.meet_alternative hm
      obtain rfl := (List.cons.inj h).2
      obtain ⟨body, j, hle, hj, hd, haj, he'⟩ := exists_script_from hn hs (i + 1) hlt hafter
      obtain ⟨others, k, hlt', hk, hd', hak⟩ := exists_alternatives_from hn hs j haj he'
      refine ⟨.tested text ⟨rest, hin.1, hin.2⟩ body others, k, by omega, hk, ?_, hak⟩
      rw [hdrop, hd, hd']
      simp [Alternatives.lines]
  | _ => exact hend.elim
termination_by lines.size - i

end

end Sheet

end Worksheet
