/-
What a sheet without tags writes.

A source without the bracket that opens a tag has no markup of its own.  So its lines and their
segments have no bracket, the engine shows what it has read of them without one, and the pieces
that a pass makes of them are plain: they hold tags, but none of a container.

* `Line.untagged_of_not_mem` — the lines of a source without the bracket;
* `segments_untagged` — their segments, none of which is markup;
* `Arithmetic.Engine.Shows` — what the engine shows of an expression that it has read;
* `Piece.Plain` — pieces whose markup opens and closes no container.
-/
import Worksheet.Proofs.Escaping
import Worksheet.Proofs.PassedOver
import Worksheet.Proofs.Placeholders
import Worksheet.Proofs.Tags
import Worksheet.Proofs.Written

namespace Worksheet

/-! ### Lines -/

/-- What follows the word of a line that starts with a directive, where that is made use of. -/
def LineForm.argument : LineForm → List Char
  | .round argument => argument
  | .loop _ argument => argument
  | .branch _ rest => rest
  | _ => []

theorem LineForm.mem_of_mem_argument {c : Char} {cs : List Char}
    (h : c ∈ (ofChars cs).argument) : c ∈ cs := by
  have hrest : ∀ d rest, Directive.split? cs = some (d, rest) → c ∈ rest → c ∈ cs := by
    intro d rest hsplit hmem
    obtain ⟨before, rfl, -⟩ := Directive.split?_eq_some hsplit
    exact List.mem_append_right before hmem
  unfold ofChars at h
  split at h
  · cases h
  · cases h
  · next hsplit => exact hrest _ _ hsplit (Text.mem_of_mem_trim h)
  · next hsplit => exact hrest _ _ hsplit (Text.mem_of_mem_trim h)
  · next hsplit => exact hrest _ _ hsplit h
  · split at h
    · cases h
    · cases h

/-- A line without the bracket. -/
structure Line.Untagged (line : Line) : Prop where
  chars : '<' ∉ line.chars
  argument : '<' ∉ line.form.argument

/-- The lines of a source without the bracket. -/
theorem Line.untagged_of_not_mem {source : String} (h : '<' ∉ source.toList) {i : Nat}
    {line : Line} (hl : (Sheet.lines source)[i]? = some line) : line.Untagged := by
  rw [Sheet.lines, List.getElem?_toArray, List.getElem?_map] at hl
  obtain ⟨raw, hraw, rfl⟩ := Option.map_eq_some_iff.mp hl
  have hchars : '<' ∉ Text.trim raw := by
    intro hmem
    exact h (mem_of_mem_splitLines (List.mem_of_getElem? hraw) (Text.mem_of_mem_trim hmem))
  refine ⟨hchars, ?_⟩
  intro hmem
  exact hchars (LineForm.mem_of_mem_argument hmem)

/-! ### Segments -/

theorem not_mem_runsFrom {c : Char} {quote : Option Quote} {read cs : List Char} (hread : c ∉ read)
    (hcs : c ∉ cs) {r : Run} (hr : r ∈ runsFrom quote read cs) : c ∉ r.chars := by
  fun_induction runsFrom quote read cs with
  | case1 quote read =>
    rw [List.mem_singleton.mp hr, List.mem_reverse]
    exact hread
  | case2 quote read d cs hquote ih =>
    rw [List.mem_cons, not_or] at hcs
    refine ih ?_ hcs.2 hr
    rw [List.mem_cons, not_or]
    exact ⟨hcs.1, hread⟩
  | case3 read d cs q hquote ih =>
    rw [List.mem_cons, not_or] at hcs
    rcases List.mem_cons.mp hr with rfl | hr
    · rwa [List.mem_reverse]
    · exact ih List.not_mem_nil hcs.2 hr
  | case4 read d cs q hquote ih =>
    rw [List.mem_cons, not_or] at hcs
    rcases List.mem_cons.mp hr with rfl | hr
    · rwa [List.mem_reverse]
    · exact ih List.not_mem_nil hcs.2 hr
  | case5 read d cs q opened hquote hne ih =>
    rw [List.mem_cons, not_or] at hcs
    refine ih ?_ hcs.2 hr
    rw [List.mem_cons, not_or]
    exact ⟨hcs.1, hread⟩

theorem Text.not_mem_pad {c : Char} (hc : c ≠ ' ') {cs : List Char} (h : c ∉ cs)
    (valueOnly first : Bool) : c ∉ pad valueOnly first cs := by
  rw [pad]
  split
  · simpa using hc
  split
  · exact h
  split
  · simp [h, hc]
  · simp [h, hc]

/-- A segment that is no markup and has no bracket. -/
structure Segment.Untagged (s : Segment) : Prop where
  kind : s.kind ≠ .markup
  chars : '<' ∉ s.chars

theorem Run.untagged_segment {r : Run} (h : '<' ∉ r.chars) (valueOnly first : Bool) :
    (r.segment valueOnly first).Untagged := by
  have hpad := Text.not_mem_pad (by decide) h valueOnly first
  have hhead : (Text.trimLeft (pad valueOnly first r.chars)).head? ≠ some '<' := by
    intro hsome
    exact hpad ((List.dropWhile_suffix _).subset (List.mem_of_head? hsome))
  rw [segment]
  split
  · exact ⟨SegmentKind.noConfusion, h⟩
  · exact ⟨SegmentKind.noConfusion, hpad⟩
  · dsimp only
    rw [if_neg hhead]
    exact ⟨SegmentKind.noConfusion, hpad⟩

/-- The segments of a text without the bracket. -/
theorem segments_untagged {cs : List Char} (h : '<' ∉ cs) (valueOnly : Bool) {s : Segment}
    (hs : s ∈ segments valueOnly cs) : s.Untagged := by
  have hruns : ∀ r ∈ (runs cs).filter Run.isShown, '<' ∉ r.chars := by
    intro r hr
    exact not_mem_runsFrom List.not_mem_nil h (List.mem_of_mem_filter hr)
  rw [segments] at hs
  generalize (runs cs).filter Run.isShown = shown at hruns hs
  rcases shown with _ | ⟨r, rs⟩
  · cases hs
  rcases List.mem_cons.mp hs with rfl | hs
  · exact Run.untagged_segment (hruns r List.mem_cons_self) valueOnly true
  · obtain ⟨r', hr', rfl⟩ := List.mem_map.mp hs
    exact Run.untagged_segment (hruns r' (List.mem_cons_of_mem r hr')) valueOnly false

/-! ### The engine -/

namespace Arithmetic.Engine

/-- The engine shows the text of an expression, in both of its forms. -/
structure Shows (shown : String) (e : Engine) : Prop where
  html : MathEngine.html e = shown
  xml : MathEngine.xml e = "<math>" ++ shown ++ "</math>"

/-- What was read is shown without the bracket. -/
theorem shows_of_parse {text : String} {inputs : InputQueue} {e : Engine}
    (h : (MathEngine.parse text inputs e).1.outcome = .ok ()) :
    ∃ shown, '<' ∉ shown.toList ∧ Shows shown (MathEngine.parse text inputs e).1.engine := by
  have houtcome : outcome (parse text inputs e).1 = .ok () := h
  show ∃ shown, '<' ∉ shown.toList ∧ Shows shown (parse text inputs e).2.1
  rw [parse] at houtcome ⊢
  generalize read text inputs = r at houtcome ⊢
  rcases r with ⟨err | ⟨statement, display⟩, rest⟩
  · cases houtcome
  · exact ⟨escape display, not_mem_escape (.inl rfl) display, rfl, rfl⟩

end Arithmetic.Engine

/-! ### Pieces -/

theorem not_mem_digits (n : Nat) : '<' ∉ (toString n).toList := by
  intro hmem
  rw [show toString n = n.repr from rfl, Nat.toList_repr] at hmem
  exact absurd (Nat.isDigit_of_mem_toDigits (by decide) (by decide) hmem) (by decide)

namespace Piece

/-- The markup of a piece opens and closes no container. -/
def Plain (piece : Piece) : Prop :=
  Tags.Plain piece.html.toList

theorem not_mem_anchorText (anchor : Option Nat) : '<' ∉ (anchorText anchor).toList := by
  rcases anchor with _ | line
  · exact List.not_mem_nil
  · show '<' ∉ (" id=\"line" ++ toString line ++ "\"").toList
    rw [String.toList_append, String.toList_append, List.mem_append, List.mem_append, not_or,
      not_or]
    exact ⟨⟨by decide, not_mem_digits line⟩, by decide⟩

/-- A tag with something put into it is plain if its name is none of a container. -/
theorem plain_filledTag {name inside : String} (rest : String) {c : Char} {cs : List Char}
    (hname : name.toList = '<' :: c :: cs) (hc : c ≠ 'd' ∧ c ≠ '/') (hcs : '<' ∉ c :: cs)
    (hinside : '<' ∉ inside.toList) (hrest : '<' ∉ rest.toList) :
    Tags.Plain (name ++ inside ++ (rest ++ ">")).toList := by
  have hinner : '<' ∉ c :: (cs ++ inside.toList ++ rest.toList) := by
    rw [← List.cons_append, ← List.cons_append, List.mem_append, List.mem_append, not_or, not_or]
    exact ⟨⟨hcs, hinside⟩, hrest⟩
  have htag := Tags.plain_tag hc hinner
  rw [String.toList_append, String.toList_append, String.toList_append, hname]
  simpa using htag

theorem plain_openParagraph (anchor : Option Nat) : (openParagraph anchor).Plain :=
  plain_filledTag "" rfl (by decide) (by decide) (not_mem_anchorText anchor) (by decide)

theorem plain_openControl (anchor : Option Nat) : (openControl anchor).Plain :=
  plain_filledTag " class=\"cond\"" rfl (by decide) (by decide)
    (not_mem_anchorText anchor) (by decide)

theorem plain_openHeading (anchor : Option Nat) : (openHeading anchor).Plain :=
  plain_filledTag "" rfl (by decide) (by decide) (not_mem_anchorText anchor) (by decide)

theorem plain_closeParagraph : closeParagraph.Plain := by
  show Tags.Plain "</p>".toList
  decide

theorem plain_closeHeading : closeHeading.Plain := by
  show Tags.Plain "</h3>".toList
  decide

theorem plain_lineEnd : lineEnd.Plain := by
  show Tags.Plain "\n".toList
  decide

theorem plain_text {content : String} (h : '<' ∉ content.toList) : (text content).Plain :=
  Tags.plain_of_not_mem h

theorem plain_label {word : String} (h : '<' ∉ word.toList) : (label word).Plain := by
  have hbefore : Tags.Plain "<span class=\"cond\">".toList := by decide +kernel
  have hafter : Tags.Plain "</span>".toList := by decide
  exact Tags.plain_append (Tags.plain_append hbefore (Tags.plain_of_not_mem h)) hafter

/-- What is written of an expression that was read. -/
theorem plain_equation {shown : String} {e : Arithmetic.Engine} (h : e.Shows shown)
    (hshown : '<' ∉ shown.toList) (structured : Bool) :
    (equation (MathEngine.html e)
      (if structured then some (MathEngine.xml e) else none)).Plain := by
  have hplain : Tags.Plain shown.toList := Tags.plain_of_not_mem hshown
  have hafter : Tags.Plain "</span>".toList := by decide
  rw [h.html, h.xml]
  rcases structured with _ | _
  · have hbefore : Tags.Plain "<span class=\"eq\">".toList := by decide +kernel
    exact Tags.plain_append (Tags.plain_append hbefore hplain) hafter
  · -- the bracket that closes the tag of the structured form stands for that of the whole
    have hbefore : Tags.Plain "<span class=\"eq\" data-xml='<math>".toList := by decide +kernel
    have hinside : Tags.Plain "</math>'>".toList := by decide
    have htag := Tags.plain_append (Tags.plain_append hbefore hplain) hinside
    have hwhole := Tags.plain_append (Tags.plain_append htag hplain) hafter
    show Tags.Plain ("<span class=\"eq\" data-xml='" ++ ("<math>" ++ shown ++ "</math>") ++ "'>" ++
      shown ++ "</span>").toList
    simpa using hwhole

theorem plain_anchorLink (line : Nat) : Tags.Plain (Markup.anchorLink line).toList := by
  have hdigits := not_mem_digits line
  have hopen : Tags.Plain "[".toList := by decide
  have htag : Tags.Plain ("<a href=\"#0\" data-text=\"" ++ toString line ++ ("\"" ++ ">")).toList :=
    plain_filledTag "\"" rfl (by decide) (by decide +kernel) hdigits (by decide)
  have hclose : Tags.Plain "</a>]".toList := by decide
  have hwhole := Tags.plain_append (Tags.plain_append (Tags.plain_append hopen htag)
    (Tags.plain_of_not_mem hdigits)) hclose
  unfold Markup.anchorLink
  simpa using hwhole

/-- A report that quotes a plain text, in words without the bracket. -/
theorem plain_lineError {source message : String} (line : Nat) (hsource : Tags.Plain source.toList)
    (hmessage : '<' ∉ message.toList) : (lineError source line message).Plain := by
  have hbefore : Tags.Plain "Error in \"".toList := by decide
  have hon : Tags.Plain "\" on line ".toList := by decide
  have hcolon : Tags.Plain ": ".toList := by decide
  have hopen : Tags.Plain "<p class=\"err\">".toList := by decide
  have hclose : Tags.Plain "</p>".toList := by decide
  have hplace := Tags.plain_append (Tags.plain_append hbefore hsource) hon
  have htext := Tags.plain_append (Tags.plain_append (Tags.plain_append hplace
    (plain_anchorLink line)) hcolon) (Tags.plain_of_not_mem hmessage)
  have hwhole := Tags.plain_append (Tags.plain_append hopen htext) hclose
  show Tags.Plain (Markup.errorNoteAt source line message).toList
  unfold Markup.errorNoteAt Markup.errorNote
  simpa using hwhole

end Piece

/-- A failed expression is quoted in a preview with input controls, which are no containers. -/
theorem Page.plain_quoted {cs : List Char} (h : '<' ∉ cs) :
    Tags.Plain (quoted false cs).toList := by
  have hcontrol : Tags.Plain Markup.inputControl.toList := by decide +kernel
  rw [quoted, String.toList_ofList, if_neg Bool.false_ne_true, Text.replaceChar]
  apply Tags.plain_flatMap
  intro c hc
  split
  · exact hcontrol
  · apply Tags.plain_of_not_mem
    intro hmem
    rw [← List.mem_singleton.mp hmem] at hc
    exact h (Text.mem_of_mem_trim hc)

end Worksheet
