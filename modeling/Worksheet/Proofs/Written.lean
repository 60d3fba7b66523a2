/-
What a visit to a line writes.

A pass only ever adds pieces to its output, and a visit hands the anchor of its line to the
tag that opens the line, or to the markup that stands in its place.  So the pieces that a
visit adds carry its anchor once at most, and no other.  In the markup of a piece the anchor
is an attribute that is put in at one place, and nothing else changes with it.

* `Page.Writes` — from one page to another, pieces with an anchor once at most;
* `Pass.writes_step` — one visit;
* `Anchoring` — a markup with the anchors of some lines put in;
* `anchoring_render` — the markup of a list of pieces, with and without their anchors.
-/
import Worksheet.Proofs.Trajectory
import Mathlib.Data.List.Basic

namespace Worksheet

open scoped List

/-! ### The anchors of some pieces -/

namespace Piece

/-- The anchors that some pieces carry, in their order. -/
def anchors (pieces : List Piece) : List Nat :=
  pieces.flatMap fun piece => piece.anchor?.toList

@[simp] theorem anchors_nil : anchors [] = [] := rfl

@[simp] theorem anchors_cons (piece : Piece) (pieces : List Piece) :
    anchors (piece :: pieces) = piece.anchor?.toList ++ anchors pieces := rfl

@[simp] theorem anchors_append (pieces pieces' : List Piece) :
    anchors (pieces ++ pieces') = anchors pieces ++ anchors pieces' := by
  simp [anchors]

/-- Pieces of which one at most is written carry no anchor if that one does not. -/
theorem anchors_if {condition : Prop} [Decidable condition] {piece : Piece}
    (h : piece.anchor? = none) : anchors (if condition then [piece] else []) = [] := by
  split
  · simp [h]
  · rfl

end Piece

/-! ### What is written on a page -/

namespace Page

variable {σ ρ : Type}

/-- From one page to another, pieces are written that carry an anchor once at most, and no
other anchor. -/
def Writes (anchor : Option Nat) (p q : Page σ ρ) : Prop :=
  ∃ pieces, q.output.toList = p.output.toList ++ pieces ∧
    Piece.anchors pieces <+ anchor.toList

namespace Writes

variable {anchor : Option Nat} {p q r : Page σ ρ}

theorem of_output_eq (h : q.output = p.output) : Writes anchor p q :=
  ⟨[], by rw [h, List.append_nil], List.nil_sublist _⟩

theorem refl (p : Page σ ρ) : Writes anchor p p :=
  of_output_eq rfl

theorem write {pieces : List Piece} (h : Piece.anchors pieces <+ anchor.toList) :
    Writes anchor p (p.write pieces) :=
  ⟨pieces, output_write pieces p, h⟩

theorem writeIf {pieces : List Piece} (condition : Bool)
    (h : Piece.anchors pieces <+ anchor.toList) :
    Writes anchor p (p.writeIf condition pieces) := by
  rw [Page.writeIf]
  split
  · exact write h
  · exact refl p

/-- Nothing but pieces without an anchor may follow. -/
theorem trans_none (h : Writes anchor p q) (h' : Writes none q r) : Writes anchor p r := by
  obtain ⟨before, hq, hbefore⟩ := h
  obtain ⟨after, hr, hafter⟩ := h'
  have hnone : Piece.anchors after = [] := List.sublist_nil.mp hafter
  refine ⟨before ++ after, ?_, ?_⟩
  · rw [hr, hq, List.append_assoc]
  · rw [Piece.anchors_append, hnone, List.append_nil]
    exact hbefore

theorem congr_left {p' : Page σ ρ} (h : Writes anchor p q) (hp : p.output = p'.output) :
    Writes anchor p' q := by
  rw [Writes, ← hp]
  exact h

end Writes

variable [MathEngine σ]

/-! ### Expressions and lines -/

theorem output_evaluate (text : String) (p : Page σ ρ) :
    (p.evaluate text).2.output = p.output := by
  have hparse : (p.parse text).2.output = p.output := rfl
  rw [evaluate]
  generalize p.parse text = r at hparse ⊢
  rcases r with ⟨e | _, q⟩
  · exact hparse
  · have hcalculate : q.calculate.2.output = q.output := rfl
    dsimp only at hparse ⊢
    generalize q.calculate = r at hcalculate ⊢
    rcases r with ⟨e | _, r⟩
    · exact hcalculate.trans hparse
    · exact hcalculate.trans hparse

/-- An expression is shown by a piece without an anchor. -/
theorem anchor?_expressionPiece {calculate : Bool} {p : Page σ ρ} {piece : Piece}
    (h : p.expressionPiece calculate = .ok piece) : piece.anchor? = none := by
  rw [expressionPiece] at h
  split at h
  · generalize MathEngine.resultText p.settings.decimals p.engine = shown at h
    rcases shown with e | text
    · cases h
    · cases h
      rfl
  · cases h
    rfl

theorem writes_showExpression (shows calculate : Bool) (p : Page σ ρ) :
    Writes none p (p.showExpression shows calculate).2 := by
  rw [showExpression]
  split
  · split
    · next piece hpiece =>
      refine .write ?_
      simp [anchor?_expressionPiece hpiece]
    · exact .refl p
  · exact .refl p

theorem writes_expression (v : Visit) (shows isCondition : Bool) (text : String)
    (p : Page σ ρ) : Writes none p (p.expression v shows isCondition text).2 := by
  have hparse : (p.parse text).2.output = p.output := rfl
  rw [expression]
  generalize p.parse text = r at hparse ⊢
  rcases r with ⟨e | _, q⟩
  · exact .of_output_eq hparse
  · dsimp only at hparse ⊢
    split
    · have hcalculate : q.calculate.2.output = q.output := rfl
      generalize q.calculate = r at hcalculate ⊢
      rcases r with ⟨e | _, r⟩
      · exact .of_output_eq (hcalculate.trans hparse)
      · exact (writes_showExpression shows v.calculate r).congr_left (hcalculate.trans hparse)
    · exact (writes_showExpression shows v.calculate q).congr_left hparse

/-- The segments that follow the opening tag of a line carry no anchor. -/
theorem writes_walk (v : Visit) (shows isCondition : Bool) (rest : List Segment)
    (value : Option Complex) (p : Page σ ρ) :
    Writes none p (p.walk v shows isCondition rest value).2 := by
  induction rest generalizing value p with
  | nil => exact .refl p
  | cons s rest ih =>
    rw [walk]
    split
    · have hexpression := writes_expression v shows isCondition s.text p
      generalize p.expression v shows isCondition s.text = r at hexpression ⊢
      rcases r with ⟨(message | payload) | result, q⟩
      · have herror : Writes none q
            (q.write [.lineError (quoted v.calculate s.chars) v.number message]) :=
          .write (List.nil_sublist _)
        exact (hexpression.trans_none herror).trans_none (ih _ _)
      · exact hexpression
      · exact hexpression.trans_none (ih _ _)
    · have htext : Writes none p (p.writeIf shows [.text s.text]) :=
        .writeIf shows (List.nil_sublist _)
      exact htext.trans_none (ih _ _)

/-- A line carries its anchor in its opening tag, or in the markup that it starts with. -/
theorem anchors_head (v : Visit) (word : Option BranchWord) (all : List Segment) :
    Piece.anchors (headPieces v word all ++ (leadingMarkup v all).1) = v.anchor.toList := by
  have hlabel : Piece.anchors (if v.calculate then [] else
      (word.map fun w => Piece.label w.label).toList) = [] := by
    rcases word with _ | word
    · simp
    · split <;> rfl
  have hopen : Piece.anchors (openingPieces v all) ++ Piece.anchors (leadingMarkup v all).1 =
      v.anchor.toList := by
    rcases all with _ | ⟨⟨kind, chars⟩, rest⟩
    · simp [openingPieces, leadingMarkup, Piece.anchor?]
    · cases kind <;> simp [openingPieces, leadingMarkup, Piece.anchor?]
  rw [headPieces, Piece.anchors_append, Piece.anchors_append, Piece.anchors_append, hlabel,
    Piece.anchors_if rfl, List.nil_append, List.append_nil, hopen]

theorem anchors_tail (word : Option BranchWord) (all : List Segment) :
    Piece.anchors (tailPieces word all) = [] := by
  have hclose : Piece.anchors (closingPieces all) = [] := by
    unfold closingPieces
    split <;> rfl
  rw [tailPieces, Piece.anchors_append, Piece.anchors_append, hclose, Piece.anchors_if rfl]
  rfl

theorem writes_showSegments (v : Visit) (word : Option BranchWord) (body : List Char)
    (p : Page σ ρ) : Writes v.anchor p (p.showSegments v word body).2 := by
  rw [showSegments]
  dsimp only
  generalize segments (p.mode == .valueOnly) body = all
  generalize (p.visible && (!v.calculate || word.isNone)) = shows
  have hhead : Writes v.anchor p
      (p.writeIf shows (headPieces v word all ++ (leadingMarkup v all).1)) :=
    .writeIf shows (by rw [anchors_head])
  generalize p.writeIf shows _ = q at hhead ⊢
  have hwalk := writes_walk v shows word.isSome (leadingMarkup v all).2 none q
  generalize q.walk v shows word.isSome (leadingMarkup v all).2 none = r at hwalk ⊢
  rcases r with ⟨e | value, t⟩
  · exact hhead.trans_none hwalk
  · have htail : Writes none t (t.writeIf shows (tailPieces word all)) :=
      .writeIf shows (by rw [anchors_tail]; exact List.nil_sublist _)
    exact (hhead.trans_none hwalk).trans_none htail

theorem writes_content (v : Visit) (stopped : Bool) (word : Option BranchWord)
    (body : List Char) (c : Conditions) (p : Page σ ρ) :
    Writes v.anchor p (p.content v stopped word body c).2.2 := by
  have hline : ∀ word, Writes v.anchor p (p.showLine v word body c).2.2 := by
    intro word
    have hsegments := writes_showSegments v word body p
    rw [showLine]
    generalize p.showSegments v word body = r at hsegments ⊢
    rcases r with ⟨e | value, q⟩
    · exact hsegments
    · exact hsegments
  unfold content
  split
  · exact .of_output_eq rfl
  rcases word with _ | word
  · exact hline none
  · dsimp only
    split
    · rw [bareWord]
      split
      · exact .refl p
      · refine .writeIf _ ?_
        rw [Piece.anchors_append, Piece.anchors_if rfl]
        simp [Piece.anchor?]
    split
    · exact .refl p
    · exact hline (some word)

/-! ### The other lines -/

theorem output_applyToggle (calculate : Bool) (t : Toggle) (p : Page σ ρ) :
    (p.applyToggle calculate t).output = p.output := by
  unfold applyToggle
  split <;> rfl

theorem output_round (calculate : Bool) (argument : List Char) (p : Page σ ρ) :
    (p.round calculate argument).2.output = p.output := by
  rw [round]
  split
  · rfl
  split
  · rfl
  split
  · have hevaluate := output_evaluate (String.ofList argument) p
    generalize p.evaluate (String.ofList argument) = r at hevaluate ⊢
    rcases r with ⟨e | value, q⟩
    · exact hevaluate
    · exact hevaluate
  · rfl

theorem output_iterationCount (argument : List Char) (p : Page σ ρ) :
    (p.iterationCount argument).2.output = p.output := by
  have hevaluate := output_evaluate (String.ofList argument) p
  rw [iterationCount]
  generalize p.evaluate (String.ofList argument) = r at hevaluate ⊢
  rcases r with ⟨e | value, q⟩
  · exact hevaluate
  · exact hevaluate

theorem writes_previewRepeat (v : Visit) (argument : List Char) (p : Page σ ρ) :
    Writes v.anchor p (p.previewRepeat v argument).2 := by
  rw [previewRepeat]
  split
  · exact .refl p
  split
  · refine .write ?_
    simp [Piece.anchor?]
  have hparse : (p.parse (String.ofList argument)).2.output = p.output := rfl
  generalize p.parse (String.ofList argument) = r at hparse ⊢
  rcases r with ⟨(message | payload) | _, q⟩
  · refine Writes.congr_left (p := q) (.write ?_) hparse
    simp [Piece.anchor?]
  · exact .of_output_eq hparse
  · refine Writes.congr_left (p := q) (.write ?_) hparse
    simp [Piece.anchor?]

omit [MathEngine σ] in
theorem writes_previewLoopWord (v : Visit) (word : LoopWord) (p : Page σ ρ) :
    Writes v.anchor p (p.previewLoopWord v word) := by
  refine .writeIf _ ?_
  rw [Piece.anchors_append, Piece.anchors_if rfl]
  simp [Piece.anchor?]

variable [Plotter ρ σ]

theorem writes_plot (v : Visit) (live : Bool) (kind : PlotKind) (p : Page σ ρ) :
    Writes v.anchor p (p.plot v live kind).2 := by
  rw [plot]
  split
  · exact .refl p
  rcases p.plots with _ | plots
  · exact .refl p
  · dsimp only
    have hrender : (p.renderPlot ⟨kind, String.ofList v.chars, v.calculate⟩ plots).2.output =
        p.output := rfl
    generalize p.renderPlot ⟨kind, String.ofList v.chars, v.calculate⟩ plots = r at hrender ⊢
    rcases r with ⟨e | html, q⟩
    · exact .of_output_eq hrender
    · refine Writes.congr_left (p := q) (.write ?_) hrender
      simp [Piece.anchor?]

end Page

/-! ### One visit -/

namespace Pass

variable {σ ρ : Type} [MathEngine σ]

theorem writes_enterLoop (v : Visit) (index : Nat) (argument : List Char) (s : Pass σ ρ) :
    Page.Writes v.anchor s.page (s.enterLoop v index argument).2.page := by
  rw [enterLoop]
  dsimp only
  split
  · exact Page.writes_previewRepeat v argument s.page
  split
  · exact .refl _
  split
  · exact .refl _
  split
  · exact .refl _
  have hcount := Page.output_iterationCount argument s.page
  generalize s.page.iterationCount argument = r at hcount ⊢
  rcases r with ⟨fault | count, page⟩
  · dsimp only
    split
    · exact .of_output_eq hcount
    · exact .of_output_eq hcount
  · exact .of_output_eq hcount

omit [MathEngine σ] in
theorem writes_loopWord (v : Visit) (s : Pass σ ρ) :
    Page.Writes v.anchor s.page (s.closeLoop v).2.page ∧
      Page.Writes v.anchor s.page (s.leaveLoop v).2.page ∧
      Page.Writes v.anchor s.page (s.continueLoop v).2.page := by
  refine ⟨?_, ?_, ?_⟩
  · rw [closeLoop]
    split
    · exact Page.writes_previewLoopWord v .closing s.page
    · split <;> exact .refl _
  · rw [leaveLoop]
    split
    · exact Page.writes_previewLoopWord v .leave s.page
    split
    · split <;> exact .refl _
    · exact .refl _
  · rw [continueLoop]
    split
    · exact Page.writes_previewLoopWord v .next s.page
    · split <;> exact .refl _

variable [Plotter ρ σ]

theorem writes_visitPlain (v : Visit) (index : Nat) (form : LineForm) (s : Pass σ ρ) :
    Page.Writes v.anchor s.page (s.visitPlain v index form).2.page := by
  have hcontent : ∀ word body, Page.Writes v.anchor s.page (s.visitContent v word body).2.page := by
    intro word body
    rw [visitContent]
    split
    · exact .refl _
    · exact Page.writes_content v _ word body _ s.page
  cases form with
  | blank =>
    refine .writeIf _ ?_
    simp [Piece.anchor?]
  | toggle t => exact .of_output_eq (Page.output_applyToggle v.calculate t s.page)
  | round argument => exact .of_output_eq (Page.output_round v.calculate argument s.page)
  | plot kind => exact Page.writes_plot v s.isLive kind s.page
  | branch word rest => exact hcontent (some word) rest
  | content => exact hcontent none v.chars
  | loop word argument => exact writes_enterLoop v index argument s

/-- A visit writes pieces that carry its anchor once at most, and no other anchor. -/
theorem writes_step (calculate : Bool) (line : Line) (index : Nat) (s : Pass σ ρ) :
    Page.Writes (s.visit calculate line index).anchor s.page
      (s.step calculate line index).2.page := by
  obtain ⟨hclose, hleave, hcontinue⟩ := s.writes_loopWord (s.visit calculate line index)
  rw [step]
  dsimp only
  split
  · exact hclose
  · exact hleave
  · exact hcontinue
  · exact writes_visitPlain _ index _ s

omit [MathEngine σ] [Plotter ρ σ] in
/-- What follows from a step adds the report of a fault at most. -/
theorem writes_follow (line : Line) (cursor : Nat) (r : Except Fault Flow × Pass σ ρ) :
    (∃ ending t, follow line cursor r = .done ending t ∧ Page.Writes none r.2.page t.page) ∨
      ∃ next t, follow line cursor r = .go next t ∧ Page.Writes none r.2.page t.page := by
  rcases r with ⟨fault | (_ | next | _), s⟩
  · rw [follow]
    split
    · exact .inl ⟨_, _, rfl, .write (List.nil_sublist _)⟩
    · exact .inr ⟨_, _, rfl, .write (List.nil_sublist _)⟩
  · exact .inr ⟨_, _, rfl, .refl _⟩
  · exact .inr ⟨_, _, rfl, .refl _⟩
  · exact .inl ⟨_, _, rfl, .refl _⟩

end Pass

/-! ### The markup of a piece -/

/-- The second markup is the first one with the anchors of some lines put in, in this
order. -/
inductive Anchoring : List Nat → List Char → List Char → Prop
  | nil : Anchoring [] [] []
  | keep {lines : List Nat} {bare html : List Char} (c : Char) (h : Anchoring lines bare html) :
    Anchoring lines (c :: bare) (c :: html)
  | put {lines : List Nat} {bare html : List Char} (line : Nat) (h : Anchoring lines bare html) :
    Anchoring (line :: lines) bare ((Markup.anchor line).toList ++ html)

namespace Anchoring

variable {lines lines' : List Nat} {bare bare' html html' : List Char}

theorem append (h : Anchoring lines bare html) (h' : Anchoring lines' bare' html') :
    Anchoring (lines ++ lines') (bare ++ bare') (html ++ html') := by
  induction h with
  | nil => exact h'
  | keep c _ ih => exact .keep c ih
  | put line _ ih =>
    rw [List.append_assoc]
    exact .put line ih

theorem refl (cs : List Char) : Anchoring [] cs cs := by
  induction cs with
  | nil => exact .nil
  | cons c cs ih => exact .keep c ih

/-- An anchor, if there is one, between two parts of a markup. -/
theorem between (anchor : Option Nat) (before after : List Char) :
    Anchoring anchor.toList (before ++ after)
      (before ++ (Piece.anchorText anchor).toList ++ after) := by
  have hput : Anchoring anchor.toList after ((Piece.anchorText anchor).toList ++ after) := by
    rcases anchor with _ | line
    · exact refl after
    · exact .put line (refl after)
  rw [List.append_assoc]
  exact (refl before).append hput

end Anchoring

namespace Markup

/-- An attribute goes in at one place of a fragment, or nowhere. -/
theorem insertInFragment_eq (fragment : List Char) :
    (∃ before after, fragment = before ++ after ∧
      ∀ attr, insertInFragment attr fragment = before ++ attr ++ after) ∨
      ∀ attr, insertInFragment attr fragment = fragment := by
  have htag : ∀ tag, ∃ before after, tag = before ++ after ∧
      ∀ attr, insertInTag attr tag = before ++ attr ++ after := by
    intro tag
    unfold insertInTag
    dsimp only
    split
    · next hslash =>
      -- the slash that ends the tag, with the blanks around it, comes after the attribute
      refine ⟨_, _, ?_, fun attr => rfl⟩
      have htag : tag = (tag.reverse.dropWhile (· == ' ')).reverse ++
          (tag.reverse.takeWhile (· == ' ')).reverse := by
        rw [← List.reverse_append, List.takeWhile_append_dropWhile, List.reverse_reverse]
      obtain ⟨inner, hinner⟩ := List.getLast?_eq_some_iff.mp hslash
      rw [hinner, List.dropLast_concat]
      rw [hinner] at htag
      simpa using htag
    · exact ⟨tag, [], by simp, by simp⟩
  unfold insertInFragment
  split
  · next c cs =>
    split
    · obtain ⟨before, after, heq, hall⟩ :=
        htag (('<' :: c :: cs).takeWhile (· != '>'))
      refine .inl ⟨before, after ++ ('<' :: c :: cs).dropWhile (· != '>'), ?_, ?_⟩
      · rw [← List.append_assoc, ← heq, List.takeWhile_append_dropWhile]
      · intro attr
        rw [hall, List.append_assoc]
    · exact .inr fun attr => rfl
  · exact .inr fun attr => rfl

end Markup

/-- A piece without its anchor. -/
def Piece.unanchored : Piece → Piece
  | openParagraph _ => openParagraph none
  | openControl _ => openControl none
  | openHeading _ => openHeading none
  | markup fragment _ => markup fragment none
  | piece => piece

/-- The markup of a piece is the one without its anchor, with that anchor put in at one place
at most. -/
theorem Piece.anchoring (piece : Piece) :
    ∃ lines, lines <+ piece.anchor?.toList ∧
      Anchoring lines piece.unanchored.html.toList piece.html.toList := by
  have htag : ∀ (anchor : Option Nat) (before after : String), ∃ lines, lines <+ anchor.toList ∧
      Anchoring lines (before ++ anchorText none ++ after).toList
        (before ++ anchorText anchor ++ after).toList := by
    intro anchor before after
    refine ⟨anchor.toList, List.Sublist.refl _, ?_⟩
    rw [show before ++ anchorText none = before from String.append_empty, String.toList_append,
      String.toList_append, String.toList_append]
    exact .between anchor before.toList after.toList
  cases piece with
  | openParagraph anchor => exact htag anchor "<p" ">"
  | openControl anchor => exact htag anchor "<p" " class=\"cond\">"
  | openHeading anchor => exact htag anchor "<h3" ">"
  | markup fragment anchor =>
    show ∃ lines, lines <+ anchor.toList ∧ Anchoring lines
      (Markup.withAttribute fragment (anchorText none)).toList
      (Markup.withAttribute fragment (anchorText anchor)).toList
    rw [Markup.withAttribute, Markup.withAttribute, String.toList_ofList, String.toList_ofList]
    rcases Markup.insertInFragment_eq fragment.toList with ⟨before, after, -, hall⟩ | hall
    · refine ⟨anchor.toList, List.Sublist.refl _, ?_⟩
      rw [hall, hall, show (anchorText none).toList = [] from rfl, List.append_nil]
      exact .between anchor before after
    · refine ⟨[], List.nil_sublist _, ?_⟩
      rw [hall, hall]
      exact .refl _
  | _ => exact ⟨[], List.nil_sublist _, .refl _⟩

/-- The markup of some pieces is that of each, one after the other. -/
theorem toList_render (pieces : List Piece) :
    (render pieces).toList = pieces.flatMap fun piece => piece.html.toList := by
  have hfold : ∀ (pieces : List Piece) (start : String),
      (pieces.foldl (fun html piece => html ++ piece.html) start).toList =
        start.toList ++ pieces.flatMap fun piece => piece.html.toList := by
    intro pieces
    induction pieces with
    | nil => simp
    | cons piece pieces ih =>
      intro start
      rw [List.foldl_cons, ih, List.flatMap_cons, String.toList_append, List.append_assoc]
  rw [render, hfold]
  rfl

theorem render_append (pieces pieces' : List Piece) :
    render (pieces ++ pieces') = render pieces ++ render pieces' := by
  rw [← String.toList_inj, String.toList_append, toList_render, toList_render, toList_render,
    List.flatMap_append]

/-- The markup of some pieces is the one without their anchors, with anchors of theirs put
in, each once at most and in their order. -/
theorem anchoring_render (pieces : List Piece) :
    ∃ lines, lines <+ Piece.anchors pieces ∧
      Anchoring lines (render (pieces.map Piece.unanchored)).toList (render pieces).toList := by
  rw [toList_render, toList_render]
  induction pieces with
  | nil => exact ⟨[], List.nil_sublist _, .nil⟩
  | cons piece pieces ih =>
    obtain ⟨lines, hlines, hpiece⟩ := piece.anchoring
    obtain ⟨lines', hlines', hrest⟩ := ih
    refine ⟨lines ++ lines', ?_, hpiece.append hrest⟩
    rw [Piece.anchors_cons]
    exact hlines.append hlines'

end Worksheet
