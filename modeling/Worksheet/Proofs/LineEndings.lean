/-
The breaks between the lines of a sheet.

Which of the three breaks ends a line is not seen in the lines, so a sheet can be carried from
one system to another: with a line feed in place of every break, or with any other mix of
breaks, it compiles to the same markup with the same numbers of lines.

* `Text.brokenLines_withLineFeeds` — the lines of a text in which every break is a line feed;
* `Text.splitLines_append_break` — a break after the last line starts no further line;
* `Workbench.line_breaks_immaterial` — what a sheet compiles to does not depend on its breaks.
-/
import Worksheet.Proofs.Breaks
import Worksheet.Text.Substitute
import Worksheet.Workbench

namespace Worksheet

namespace Text

/-! ### One kind of break -/

/-- The text with a line feed for every break: first for each carriage return that a line feed
follows, together with it, then for each carriage return that is left. -/
def withLineFeeds (cs : List Char) : List Char :=
  replace ['\r'] ['\n'] (replace ['\r', '\n'] ['\n'] cs)

theorem withLineFeeds_both (rest : List Char) :
    withLineFeeds ('\r' :: '\n' :: rest) = '\n' :: withLineFeeds rest := by
  simp [withLineFeeds, replace, replaceFrom, stripPrefix?]

theorem withLineFeeds_lineFeed (rest : List Char) :
    withLineFeeds ('\n' :: rest) = '\n' :: withLineFeeds rest := by
  simp [withLineFeeds, replace, replaceFrom, stripPrefix?]

theorem withLineFeeds_carriageReturn {rest : List Char} (h : ∀ tail, rest ≠ '\n' :: tail) :
    withLineFeeds ('\r' :: rest) = '\n' :: withLineFeeds rest := by
  rcases rest with _ | ⟨c, rest⟩
  · rfl
  · have hc : c ≠ '\n' := fun hc => h rest (by rw [hc])
    simp [withLineFeeds, replace, replaceFrom, stripPrefix?, hc]

theorem withLineFeeds_cons {c : Char} (hr : c ≠ '\r') (rest : List Char) :
    withLineFeeds (c :: rest) = c :: withLineFeeds rest := by
  simp [withLineFeeds, replace, replaceFrom, stripPrefix?, hr]

/-- With line feeds for its breaks a text has the lines that it had. -/
theorem brokenLines_withLineFeeds (cs : List Char) :
    brokenLines (withLineFeeds cs) =
      (brokenLines cs).map fun old => (old.1, old.2.map fun _ => .lineFeed) := by
  fun_induction brokenLines cs with
  | case1 => rfl
  | case2 rest ih => simp [withLineFeeds_both, brokenLines, ih]
  | case3 rest hfeed ih => simp [withLineFeeds_carriageReturn hfeed, brokenLines, ih]
  | case4 rest ih => simp [withLineFeeds_lineFeed, brokenLines, ih]
  | case5 c rest _ hr hn h ih => simp [withLineFeeds_cons hr, brokenLines_cons hr hn, ih, h]
  | case6 c rest _ hr hn line ending lines h ih =>
    simp [withLineFeeds_cons hr, brokenLines_cons hr hn, ih, h]

theorem splitLines_withLineFeeds (cs : List Char) :
    splitLines (withLineFeeds cs) = splitLines cs := by
  simp [splitLines, brokenLines_withLineFeeds]

/-- Texts that differ only in their breaks have the same lines. -/
theorem splitLines_eq_of_withLineFeeds {cs other : List Char}
    (h : withLineFeeds other = withLineFeeds cs) : splitLines other = splitLines cs := by
  rw [← splitLines_withLineFeeds other, h, splitLines_withLineFeeds]

/-! ### A break at the end -/

theorem getLast?_tail {c d : Char} {rest : List Char} (h : (d :: rest).getLast? = some c)
    (hne : c ≠ d) : rest.getLast? = some c := by
  rcases rest with _ | ⟨e, rest⟩
  · exact absurd (Option.some.inj h).symm hne
  · rwa [List.getLast?_cons_cons] at h

/-- A break at the end of a text that does not end in one ends its last line. -/
theorem brokenLines_append_break {cs : List Char} {c : Char} (hlast : cs.getLast? = some c)
    (hr : c ≠ '\r') (hn : c ≠ '\n') (ending : LineBreak) :
    ∃ earlier line, brokenLines cs = earlier ++ [(line, none)] ∧
      brokenLines (cs ++ ending.chars) = earlier ++ [(line, some ending)] := by
  -- a line that ends before the last one is there with the new break as without it
  have hbefore : ∀ {old : List Char × Option LineBreak} {rest : List Char},
      (∃ earlier line, brokenLines rest = earlier ++ [(line, none)] ∧
        brokenLines (rest ++ ending.chars) = earlier ++ [(line, some ending)]) →
      ∃ earlier line, old :: brokenLines rest = earlier ++ [(line, none)] ∧
        old :: brokenLines (rest ++ ending.chars) = earlier ++ [(line, some ending)] := by
    rintro old rest ⟨earlier, line, hopen, hclosed⟩
    exact ⟨old :: earlier, line, by rw [hopen]; rfl, by rw [hclosed]; rfl⟩
  fun_induction brokenLines cs with
  | case1 => cases hlast
  | case2 rest ih => exact hbefore (ih (getLast?_tail (getLast?_tail hlast hr) hn))
  | case3 rest hfeed ih =>
    have hrest := getLast?_tail hlast hr
    have hnext : ∀ tail, rest ++ ending.chars ≠ '\n' :: tail := by
      rcases rest with _ | ⟨d, rest⟩
      · cases hrest
      · intro tail htail
        exact hfeed rest (by rw [(List.cons.inj htail).1])
    rw [List.cons_append, brokenLines.eq_3 _ hnext]
    exact hbefore (ih hrest)
  | case4 rest ih => exact hbefore (ih (getLast?_tail hlast hn))
  | case5 d rest _ hdr hdn h ih =>
    have hrest : rest = [] := by rw [← joinBreaks_brokenLines rest, h]; rfl
    subst hrest
    refine ⟨[], [d], rfl, ?_⟩
    have hbreak : brokenLines (ending.chars ++ []) = [([], some ending)] :=
      brokenLines_break fun _ _ => (List.cons_ne_nil _ _).symm
    have hline := brokenLines_append (unbroken_cons hdr hdn unbroken_nil) hbreak
    rwa [List.append_nil, List.singleton_append] at hline
  | case6 d rest _ hdr hdn line ending' lines h ih =>
    have hrest : rest.getLast? = some c := by
      rcases rest with _ | ⟨e, rest⟩
      · cases h
      · rwa [List.getLast?_cons_cons] at hlast
    obtain ⟨earlier, last, hopen, hclosed⟩ := ih hrest
    rw [List.cons_append, brokenLines_cons hdr hdn, hclosed]
    rw [h] at hopen
    -- the character belongs to the first line, which is the last one or not
    rcases earlier with _ | ⟨first, earlier⟩
    · obtain ⟨⟨rfl, rfl⟩, rfl⟩ : (line = last ∧ ending' = none) ∧ lines = [] := by
        simpa using hopen
      exact ⟨[], d :: line, rfl, rfl⟩
    · obtain ⟨rfl, rfl⟩ : (line, ending') = first ∧ lines = earlier ++ [(last, none)] := by
        simpa using hopen
      exact ⟨(d :: line, ending') :: earlier, last, rfl, rfl⟩

theorem splitLines_append_break {cs : List Char} {c : Char} (hlast : cs.getLast? = some c)
    (hr : c ≠ '\r') (hn : c ≠ '\n') (ending : LineBreak) :
    splitLines (cs ++ ending.chars) = splitLines cs := by
  obtain ⟨earlier, line, hopen, hclosed⟩ := brokenLines_append_break hlast hr hn ending
  rw [splitLines, splitLines, hopen, hclosed, List.map_append, List.map_append]
  rfl

/-! ### The lines found -/

theorem Broken.unbroken {lines : List (List Char × Option LineBreak)} (h : Broken lines) :
    ∀ line ∈ lines.map Prod.fst, Unbroken line := by
  induction h with
  | nil => exact fun _ hmem => absurd hmem List.not_mem_nil
  | last hline _ => exact List.forall_mem_singleton.mpr hline
  | broken hline _ _ ih => exact List.forall_mem_cons.mpr ⟨hline, ih⟩

/-- There is one way to read a text as lines and breaks that could be those of a text. -/
theorem broken_unique {cs : List Char} {lines : List (List Char × Option LineBreak)}
    (h : Broken lines) (hjoin : joinBreaks lines = cs) : lines = brokenLines cs := by
  rw [← hjoin, brokenLines_joinBreaks h]

end Text

/-! ### The sheet compiled -/

namespace Sheet

/-- A source with a line feed for every break. -/
def withLineFeeds (source : String) : String :=
  .ofList (Text.withLineFeeds source.toList)

end Sheet

namespace Workbench

variable {σ ρ : Type} [MathEngine σ] [Plotter ρ σ]

/-- A pass sees nothing of a source but its lines. -/
theorem pieces_eq_of_splitLines_eq {source other : String}
    (h : Text.splitLines other.toList = Text.splitLines source.toList) (calculate : Bool)
    (inputs : List String) (w : Workbench σ ρ) :
    w.pieces other calculate inputs = w.pieces source calculate inputs := by
  rw [pieces, pieces, Sheet.lines, h, Sheet.lines]

theorem compile_eq_of_splitLines_eq {source other : String}
    (h : Text.splitLines other.toList = Text.splitLines source.toList) (calculate : Bool)
    (inputs : List String) (w : Workbench σ ρ) :
    w.compile other calculate inputs = w.compile source calculate inputs := by
  rw [compile, compile, pieces_eq_of_splitLines_eq h]

/-- **What ends the lines of a source is not seen in them.**  For every source:

* **no line goes over a break**: no line has a carriage return or a line feed in it;
* **nothing is lost**: the lines and their breaks, put together again, are the source, and no
  other lines and breaks are, if a carriage return and its line feed count as one break;
* **line feeds do for all breaks**: with a line feed in place of each carriage return and its
  line feed, and then of each other carriage return, the source has the same lines;
* **any mix of breaks does**: a source that differs in nothing but its breaks has the same
  lines and compiles to the same pieces, and so to the same markup, whatever the engine, the
  inputs and the settings;
* **the last break starts no line**: a source that ends in something else than a break has the
  same lines, and compiles to the same, with any break after it. -/
theorem line_breaks_immaterial (source : String) :
    (∀ line ∈ Text.splitLines source.toList, '\r' ∉ line ∧ '\n' ∉ line) ∧
    (∃ lines, Text.splitLines source.toList = lines.map Prod.fst ∧
      Text.Broken lines ∧ Text.joinBreaks lines = source.toList ∧
      ∀ other, Text.Broken other → Text.joinBreaks other = source.toList → other = lines) ∧
    Text.splitLines (Text.withLineFeeds source.toList) = Text.splitLines source.toList ∧
    (∀ other, Sheet.withLineFeeds other = Sheet.withLineFeeds source →
      Text.splitLines other.toList = Text.splitLines source.toList ∧
      ∀ calculate inputs (w : Workbench σ ρ),
        w.pieces other calculate inputs = w.pieces source calculate inputs ∧
        w.compile other calculate inputs = w.compile source calculate inputs) ∧
    (∀ c, source.toList.getLast? = some c → c ≠ '\r' → c ≠ '\n' →
      ∀ ending : Text.LineBreak,
        Text.splitLines (source.toList ++ ending.chars) = Text.splitLines source.toList ∧
        ∀ calculate inputs (w : Workbench σ ρ),
          w.compile (source ++ .ofList ending.chars) calculate inputs =
            w.compile source calculate inputs) := by
  have hbroken := Text.broken_brokenLines source.toList
  refine ⟨hbroken.unbroken, ⟨_, rfl, hbroken, Text.joinBreaks_brokenLines _, ?_⟩,
    Text.splitLines_withLineFeeds _, ?_, ?_⟩
  · intro other hother hjoin
    exact Text.broken_unique hother hjoin
  · intro other h
    have hlines := Text.splitLines_eq_of_withLineFeeds (String.ofList_inj.mp h)
    refine ⟨hlines, fun calculate inputs w => ?_⟩
    exact ⟨w.pieces_eq_of_splitLines_eq hlines .., w.compile_eq_of_splitLines_eq hlines ..⟩
  · intro c hlast hr hn ending
    have hlines := Text.splitLines_append_break hlast hr hn ending
    refine ⟨hlines, fun calculate inputs w => w.compile_eq_of_splitLines_eq ?_ calculate inputs⟩
    rwa [String.toList_append, String.toList_ofList]

end Workbench

end Worksheet
