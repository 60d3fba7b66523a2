/-
The containers of a preview.

A preview opens a container for the body of each group and each loop, and closes it at the line
that ends the body.  The tags are written by four kinds of lines: `#repeat`, `#loop`, branch
words that stand alone and branch words with something behind them, each by rules of its own.
In a well-nested sheet they agree: at every position as many containers are open as there are
blocks around it.  A condition or a count that cannot be read is reported inside its line and
changes nothing about that.

* `Piece.Nests` — pieces that lead from one depth of containers to another;
* `Page.Nested` — the page of a preview with a number of open containers;
* `Pass.Leads`, `Pass.leads_step` — what a visit to a line makes of it;
* `Pass.NestedAt`, `Pass.Reaches.nested` — every place of a preview;
* `Workbench.preview_containers_balanced` — what follows for the markup.
-/
import Worksheet.Proofs.BalancedPass
import Worksheet.Proofs.Invariants
import Worksheet.Proofs.Preview
import Worksheet.Proofs.Untagged

namespace Worksheet

/-! ### Pieces that nest -/

/-- Pieces lead from one depth of containers to another; apart from the tags of containers,
they are plain. -/
inductive Piece.Nests : Nat → List Piece → Nat → Prop
  | nil (n : Nat) : Nests n [] n
  | plain {piece : Piece} {pieces : List Piece} {m n : Nat} (hp : piece.Plain)
      (h : Nests m pieces n) : Nests m (piece :: pieces) n
  | indent {pieces : List Piece} {m n : Nat} (h : Nests (m + 1) pieces n) :
    Nests m (.indent :: pieces) n
  | dedent {pieces : List Piece} {m n : Nat} (h : Nests m pieces n) :
    Nests (m + 1) (.dedent :: pieces) n

namespace Piece

variable {pieces pieces' : List Piece} {k m n : Nat}

theorem Nests.append (h : Nests k pieces m) (h' : Nests m pieces' n) :
    Nests k (pieces ++ pieces') n := by
  induction h with
  | nil => exact h'
  | plain hp _ ih => exact .plain hp (ih h')
  | indent _ ih => exact .indent (ih h')
  | dedent _ ih => exact .dedent (ih h')

theorem Nests.single {piece : Piece} (h : piece.Plain) (n : Nat) : Nests n [piece] n :=
  .plain h (.nil n)

/-- A paragraph is plain. -/
theorem Nests.paragraph {opening inside : Piece} (hopening : opening.Plain)
    (hinside : inside.Plain) (h : Nests m pieces n) :
    Nests m (opening :: inside :: .closeParagraph :: pieces) n :=
  .plain hopening (.plain hinside (.plain plain_closeParagraph h))

/-- The markup of pieces that nest does. -/
theorem Nests.render (h : Nests m pieces n) : Tags.Nests m (render pieces).toList n := by
  rw [toList_render]
  induction h with
  | nil n => exact (Tags.plain_of_not_mem List.not_mem_nil).nests n
  | plain hp _ ih => exact (hp.nests _).append ih
  | indent _ ih => exact (Tags.nests_opening _).append ih
  | dedent _ ih => exact (Tags.nests_closing _).append ih

end Piece

/-! ### The page of a preview -/

variable {ρ : Type}

namespace Page

/-- The page of a preview without a plotter, in which everything is visible and a number of
containers is open. -/
structure Nested {σ : Type} (depth : Nat) (p : Page σ ρ) : Prop where
  output : Piece.Nests 0 p.output.toList depth
  visible : p.visible = true
  plots : p.plots = none

variable {v : Visit} {p : Page Arithmetic.Engine ρ} {m n : Nat}

theorem Nested.write (h : p.Nested m) {pieces : List Piece} (hp : Piece.Nests m pieces n) :
    (p.write pieces).Nested n := by
  refine ⟨?_, h.visible, h.plots⟩
  rw [output_write]
  exact h.output.append hp

theorem Nested.writeIf (h : p.Nested m) {pieces : List Piece} (hp : Piece.Nests m pieces n)
    {condition : Bool} (hc : condition = true) : (p.writeIf condition pieces).Nested n := by
  rw [Page.writeIf, if_pos hc]
  exact h.write hp

/-- What reading an expression in a preview leads to: it is shown without the bracket, or
refused in words without it. -/
structure Reads (depth : Nat) (r : Except Failure Unit × Page Arithmetic.Engine ρ) : Prop where
  page : r.2.Nested depth
  shown : r.1 = .ok () → ∃ shown, '<' ∉ shown.toList ∧ r.2.engine.Shows shown
  refused : ∀ message, r.1 = .error (.refused message) → '<' ∉ message.toList
  safe : ∀ payload, r.1 ≠ .error (.crashed payload)

theorem reads_parse {text : String} (htext : '<' ∉ text.toList) (h : p.Nested n) :
    Reads n (p.parse text) where
  page := ⟨h.output, h.visible, h.plots⟩
  shown hok := Arithmetic.Engine.shows_of_parse hok
  refused _ hrefused := Arithmetic.Engine.refused_bare htext hrefused
  safe := Arithmetic.Engine.readAlike.safe text p.inputs p.engine

/-! ### Lines with content -/

/-- An expression without the bracket opens and closes no container, nor is it refused in words
with the bracket. -/
theorem nested_expression (hv : v.calculate = false) {text : String} (htext : '<' ∉ text.toList)
    (shows isCondition : Bool) (h : p.Nested n) :
    (p.expression v shows isCondition text).2.Nested n ∧
      ∀ message, (p.expression v shows isCondition text).1 = .error (.refused message) →
        '<' ∉ message.toList := by
  have hread := reads_parse htext h
  rw [expression]
  generalize p.parse text = r at hread ⊢
  rcases r with ⟨e | _, q⟩
  · refine ⟨hread.page, ?_⟩
    intro message heq
    exact hread.refused message (congrArg Except.error (Except.error.inj heq))
  · obtain ⟨shown, hbare, hshows⟩ := hread.shown rfl
    dsimp only
    rw [hv, Bool.false_and, if_neg Bool.false_ne_true, showExpression, expressionPiece_preview]
    split
    · refine ⟨hread.page.write (.single (Piece.plain_equation hshows hbare _) n), ?_⟩
      intro message heq
      cases heq
    · refine ⟨hread.page, ?_⟩
      intro message heq
      cases heq

theorem nested_walk (hv : v.calculate = false) (isCondition : Bool) {rest : List Segment}
    (hrest : ∀ s ∈ rest, s.Untagged) (value : Option Complex) (h : p.Nested n) :
    (p.walk v true isCondition rest value).2.Nested n := by
  induction rest generalizing value p with
  | nil => exact h
  | cons s rest ih =>
    have hs := hrest s List.mem_cons_self
    have hothers : ∀ s ∈ rest, s.Untagged := fun t ht => hrest t (List.mem_cons_of_mem s ht)
    have htext : '<' ∉ s.text.toList := by
      rw [Segment.text, String.toList_ofList]
      exact hs.chars
    rw [walk]
    split
    · obtain ⟨hpage, hrefused⟩ := nested_expression hv htext true isCondition h
      generalize p.expression v true isCondition s.text = r at hpage hrefused ⊢
      rcases r with ⟨(message | payload) | result, q⟩
      · -- the report stands in the place of the expression
        have hquoted := plain_quoted hs.chars
        rw [← hv] at hquoted
        exact ih hothers none (hpage.write
          (.single (Piece.plain_lineError v.number hquoted (hrefused message rfl)) n))
      · exact hpage
      · exact ih hothers _ hpage
    · exact ih hothers value (h.writeIf (.single (Piece.plain_text htext) n) rfl)

theorem nests_headPieces (word : Option BranchWord) {all : List Segment}
    (hall : ∀ s ∈ all, s.Untagged) (k : Nat) :
    Piece.Nests (k + if endsBody word then 1 else 0) (headPieces v word all) k := by
  have hopening : Piece.Nests k (openingPieces v all) k := by
    unfold openingPieces
    split
    · exact .single (Piece.plain_openHeading _) k
    · exact .nil k
    · exact .single (Piece.plain_openParagraph _) k
  have hlabel : Piece.Nests k
      (if v.calculate then [] else (word.map fun w => .label w.label).toList) k := by
    split
    · exact .nil k
    · rcases word with _ | word
      · exact .nil k
      · refine .single (Piece.plain_label ?_) k
        cases word with
        | opening => decide
        | alternative => decide
        | otherwise => decide
        | closing => decide
  refine Piece.Nests.append (Piece.Nests.append ?_ hopening) hlabel
  split
  · exact .dedent (.nil k)
  · exact .nil k

theorem nests_tailPieces (word : Option BranchWord) (all : List Segment) (k : Nat) :
    Piece.Nests k (tailPieces word all) (k + if beginsBody word then 1 else 0) := by
  have hclosing : Piece.Nests k (closingPieces all) k := by
    unfold closingPieces
    split
    · exact .single Piece.plain_closeHeading k
    · exact .nil k
    · exact .single Piece.plain_closeParagraph k
  refine Piece.Nests.append (Piece.Nests.append hclosing ?_) (.single Piece.plain_lineEnd _)
  split
  · exact .indent (.nil _)
  · exact .nil k

/-- A line with segments closes the container of the body that it ends, and opens one for the
body that it begins. -/
theorem nested_showSegments (hv : v.calculate = false) (word : Option BranchWord)
    {body : List Char} (hbody : '<' ∉ body) {k : Nat}
    (h : p.Nested (k + if endsBody word then 1 else 0)) :
    (p.showSegments v word body).2.Nested (k + if beginsBody word then 1 else 0) := by
  have hall : ∀ s ∈ segments (p.mode == .valueOnly) body, s.Untagged :=
    fun s hs => segments_untagged hbody _ hs
  rw [showSegments]
  dsimp only
  generalize segments (p.mode == .valueOnly) body = all at hall ⊢
  have hmarkup : leadingMarkup v all = ([], all) := by
    unfold leadingMarkup
    split
    · next chars rest => exact absurd rfl (hall ⟨.markup, chars⟩ List.mem_cons_self).kind
    · rfl
  have hshows : (p.visible && (!v.calculate || word.isNone)) = true := by
    rw [h.visible, hv]
    rfl
  rw [hmarkup, hshows]
  have hhead := h.writeIf ((nests_headPieces (v := v) word hall k).append (.nil k)) rfl
  have hpage := nested_walk hv word.isSome hall none hhead
  obtain ⟨result, hok⟩ := walk_preview hv Arithmetic.Engine.readAlike.safe true word.isSome all none
    (p := p.writeIf true (headPieces v word all ++ []))
  dsimp only
  generalize walk v true word.isSome all none (p.writeIf true _) = r at hpage hok ⊢
  obtain ⟨outcome, q⟩ := r
  obtain rfl : outcome = .ok result := hok
  exact hpage.writeIf (nests_tailPieces word all k) rfl

/-- The containers that are open where a branch word stands, and behind it. -/
inductive Moves : BranchWord → Nat → Nat → Prop
  | opening (k : Nat) : Moves .opening k (k + 1)
  | alternative (k : Nat) : Moves .alternative (k + 1) (k + 1)
  | otherwise (k : Nat) : Moves .otherwise (k + 1) (k + 1)
  | closing (k : Nat) : Moves .closing (k + 1) k

theorem nested_showLine (hv : v.calculate = false) (word : Option BranchWord) {body : List Char}
    (hbody : '<' ∉ body) (c : Conditions) {k : Nat}
    (h : p.Nested (k + if endsBody word then 1 else 0)) :
    (p.showLine v word body c).2.2.Nested (k + if beginsBody word then 1 else 0) := by
  have hpage := nested_showSegments hv word hbody h
  rw [showLine]
  generalize p.showSegments v word body = r at hpage ⊢
  rcases r with ⟨e | value, q⟩
  · exact hpage
  · exact hpage

/-- A branch word with something behind it. -/
theorem nested_word (hv : v.calculate = false) {word : BranchWord} {body : List Char}
    (hbody : '<' ∉ body) (c : Conditions) (hw : Moves word m n) (h : p.Nested m) :
    (p.showLine v (some word) body c).2.2.Nested n := by
  cases hw with
  | opening => exact nested_showLine (k := m) hv (some .opening) hbody c h
  | alternative k => exact nested_showLine hv (some .alternative) hbody c h
  | otherwise k => exact nested_showLine (k := k + 1) hv (some .otherwise) hbody c h
  | closing => exact nested_showLine (k := n) hv (some .closing) hbody c h

/-- A branch word that stands alone and waits for no condition. -/
theorem nested_bareWord (hv : v.calculate = false) {word : BranchWord} {c : Conditions}
    (hpending : c.pending = (word == .opening || word == .alternative))
    (hc : c.pending = false) (hw : Moves word m n) (h : p.Nested m) :
    (p.bareWord v word c).1 = .ok () ∧ (p.bareWord v word c).2.2.Nested n := by
  have hshown : (p.visible && !v.calculate) = true := by
    rw [h.visible, hv]
    rfl
  rw [bareWord, if_neg (by rw [hc]; exact Bool.false_ne_true), hshown]
  refine ⟨rfl, h.writeIf ?_ rfl⟩
  rw [hc] at hpending
  cases hw with
  | opening => cases hpending
  | alternative => cases hpending
  | otherwise k =>
    exact .dedent (.paragraph (Piece.plain_openParagraph _) (Piece.plain_label (by decide))
      (.indent (.nil _)))
  | closing =>
    exact .dedent (.paragraph (Piece.plain_openParagraph _) (Piece.plain_label (by decide))
      (.nil _))

/-! ### Other lines -/

theorem Nested.applyToggle (h : p.Nested n) {t : Toggle} (ht : ∀ scope, t ≠ .visibility scope)
    (calculate : Bool) : (p.applyToggle calculate t).Nested n := by
  rcases t with scope | mode | mode | scope
  · exact absurd rfl (ht scope)
  · exact ⟨h.output, h.visible, h.plots⟩
  · exact ⟨h.output, h.visible, h.plots⟩
  · exact h

theorem nested_round (argument : List Char) (h : p.Nested n) :
    (p.round false argument).1 = .ok () ∧ (p.round false argument).2.Nested n := by
  rw [round]
  split
  · exact ⟨rfl, h⟩
  split
  · exact ⟨rfl, h.output, h.visible, h.plots⟩
  · exact ⟨rfl, h⟩

/-- `#repeat` opens a container, also where its count cannot be read. -/
theorem nested_previewRepeat {argument : List Char} (hargument : '<' ∉ argument)
    (h : p.Nested n) :
    (p.previewRepeat v argument).2.Nested (n + 1) ∧
      ∀ fault, (p.previewRepeat v argument).1 = .error fault → '<' ∉ fault.message.toList := by
  have hkeyword : '<' ∉ LoopWord.opening.keyword.toList := by decide
  have htext : '<' ∉ (String.ofList argument).toList := by rwa [String.toList_ofList]
  rw [previewRepeat, h.visible, Bool.not_true, if_neg Bool.false_ne_true]
  split
  · refine ⟨h.write (.paragraph (Piece.plain_openControl _) (Piece.plain_text hkeyword)
      (.indent (.nil _))), ?_⟩
    intro fault heq
    cases heq
  have hread := reads_parse htext h
  generalize p.parse (String.ofList argument) = r at hread ⊢
  rcases r with ⟨(message | payload) | _, q⟩
  · refine ⟨hread.page.write (.paragraph (Piece.plain_openParagraph _)
      (Piece.plain_label hkeyword) (.indent (.nil _))), ?_⟩
    intro fault heq
    cases heq
    exact hread.refused message rfl
  · exact absurd rfl (hread.safe payload)
  · obtain ⟨shown, hbare, hshows⟩ := hread.shown rfl
    have hcount : '<' ∉ (" " ++ MathEngine.html q.engine).toList := by
      rw [hshows.html, String.toList_append, List.mem_append, not_or]
      exact ⟨by decide, hbare⟩
    refine ⟨hread.page.write (.plain (Piece.plain_openParagraph _) (.paragraph
      (Piece.plain_label hkeyword) (Piece.plain_text hcount) (.indent (.nil _)))), ?_⟩
    intro fault heq
    cases heq

/-- Of the other loop words, `#loop` closes a container. -/
theorem nested_previewLoopWord (word : LoopWord) (h : p.Nested m)
    (hm : m = if word = .closing then n + 1 else n) : (p.previewLoopWord v word).Nested n := by
  have hkeyword : '<' ∉ word.keyword.toList := by
    cases word with
    | opening => decide
    | closing => decide
    | leave => decide
    | next => decide
  have hline : Piece.Nests n [.openControl v.anchor, .text word.keyword, .closeParagraph] n :=
    .paragraph (Piece.plain_openControl _) (Piece.plain_text hkeyword) (.nil n)
  rw [previewLoopWord]
  refine h.writeIf (Piece.Nests.append ?_ hline) h.visible
  rw [hm]
  split
  · exact .dedent (.nil n)
  · exact .nil n

theorem nested_plot [Plotter ρ Arithmetic.Engine] (live : Bool) (kind : PlotKind)
    (h : p.Nested n) :
    (p.plot v live kind).2.Nested n ∧
      ∀ fault, (p.plot v live kind).1 = .error fault → '<' ∉ fault.message.toList := by
  rw [plot, h.plots]
  split
  · refine ⟨h, ?_⟩
    intro fault heq
    cases heq
  · refine ⟨h, ?_⟩
    intro fault heq
    cases heq
    decide

end Page

/-! ### One step -/

namespace Pass

variable {s t : Pass Arithmetic.Engine ρ} {around after : List Opener} {n : Nat}

/-- A visit leaves a page with a number of open containers.  If the line is reported, that is
in words without the bracket. -/
structure Leaves {α : Type} (depth : Nat) (r : Except Fault α × Pass Arithmetic.Engine ρ) :
    Prop where
  page : r.2.page.Nested depth
  quiet : ∀ fault, r.1 = .error fault → '<' ∉ fault.message.toList

/-- What a visit leads to: the line lacks the condition that it needs, or leaves a number of
open containers. -/
def Leads {α : Type} (depth : Nat) (r : Except Fault α × Pass Arithmetic.Engine ρ) : Prop :=
  r.1 = .error (.structural .emptyCondition) ∨ Leaves depth r

theorem leads_of_ok {α : Type} {r : Except Fault α × Pass Arithmetic.Engine ρ} {x : α}
    (hr : r.1 = .ok x) (h : r.2.page.Nested n) : Leads n r := by
  refine .inr ⟨h, ?_⟩
  intro fault heq
  rw [hr] at heq
  cases heq

/-- A line that leads to the next one leads there with what it leaves. -/
theorem Leads.next {r : Except Fault Unit × Pass Arithmetic.Engine ρ} (h : Leads n r) :
    Leads n (r.1.map fun _ => Flow.next, r.2) := by
  rcases h with hempty | ⟨hpage, hquiet⟩
  · rw [hempty]
    exact .inl rfl
  · refine .inr ⟨hpage, ?_⟩
    intro fault heq
    exact hquiet fault (eq_error_of_plainOutcome heq)

theorem moves_of_meet {index : Nat} {word : BranchWord} {rest : List Char}
    (hm : Opener.meet index (.branch word rest) around = some after) :
    Page.Moves word around.length after.length := by
  cases word with
  | opening =>
    cases hm
    exact .opening _
  | alternative =>
    obtain ⟨outer, rfl, rfl⟩ := Opener.meet_alternative hm
    exact .alternative _
  | otherwise =>
    obtain ⟨outer, rfl, rfl⟩ := Opener.meet_otherwise hm
    exact .otherwise _
  | closing =>
    obtain ⟨last, rfl⟩ := Opener.meet_closeGroup hm
    exact .closing _

/-- A line with a branch word. -/
theorem leads_branch {v : Visit} (hv : v.calculate = false) {index : Nat} {word : BranchWord}
    {rest : List Char} (hrest : '<' ∉ rest) (hb : Balanced false around s)
    (hm : Opener.meet index (.branch word rest) around = some after)
    (h : s.page.Nested around.length) :
    Leads after.length (s.visitContent v (some word) rest) := by
  obtain ⟨d, henter, -⟩ := fits_enter hb.fits hm
  have hmoves := moves_of_meet hm
  have hpending : d.pending = (word == .opening || word == .alternative) := by
    rw [Conditions.eq_of_enter henter]
  rw [visitContent, henter]
  dsimp only
  rw [Page.content, hv, Bool.false_and, if_neg Bool.false_ne_true]
  split
  · rcases hc : d.pending with _ | _
    · obtain ⟨hok, hpage⟩ := Page.nested_bareWord hv hpending hc hmoves h
      exact leads_of_ok hok hpage
    · rw [Page.bareWord, if_pos hc]
      exact .inl rfl
  · rw [Bool.false_and, Bool.false_and, if_neg Bool.false_ne_true]
    exact leads_of_ok (Page.showLine_preview hv Arithmetic.Engine.readAlike.safe _ _ _)
      (Page.nested_word hv hrest d hmoves h)

/-- A line with content. -/
theorem leads_content {v : Visit} (hv : v.calculate = false) {body : List Char}
    (hbody : '<' ∉ body) (h : s.page.Nested n) : Leads n (s.visitContent v none body) := by
  rw [visitContent, show s.conditions.enter none = .ok { s.conditions with label := none } from rfl]
  dsimp only
  rw [Page.content, hv, Bool.false_and, if_neg Bool.false_ne_true]
  exact leads_of_ok (Page.showLine_preview hv Arithmetic.Engine.readAlike.safe _ _ _)
    (Page.nested_showLine (k := n) hv none hbody _ h)

variable [Plotter ρ Arithmetic.Engine] {lines : Array Line} {i j : Nat} {line : Line}

/-- A line that leads to the next one. -/
theorem leads_visitPlain {v : Visit} (hv : v.calculate = false) (hline : line.Untagged)
    (hchars : v.chars = line.chars) (htoggle : ∀ scope, line.form ≠ .toggle (.visibility scope))
    (hloop : ∀ word argument, line.form = .loop word argument → word = .opening)
    (hb : Balanced false around s) (hm : Opener.meet i line.form around = some after)
    (h : s.page.Nested around.length) : Leads after.length (s.visitPlain v i line.form) := by
  have hargument := hline.argument
  generalize line.form = form at htoggle hloop hm hargument ⊢
  cases form with
  | blank =>
    cases hm
    have hshown : (s.page.visible && (!v.calculate || s.isLive)) = true := by
      rw [h.visible, hv]
      rfl
    refine leads_of_ok rfl (h.writeIf ?_ hshown)
    exact .paragraph (Piece.plain_openParagraph _) (Piece.plain_text (by decide))
      (.single Piece.plain_lineEnd _)
  | toggle t =>
    cases hm
    refine leads_of_ok rfl (h.applyToggle ?_ v.calculate)
    rintro scope rfl
    exact htoggle scope rfl
  | round argument =>
    cases hm
    obtain ⟨hok, hpage⟩ := Page.nested_round argument h
    show Leads _ (s.onPage (s.page.round v.calculate argument))
    rw [hv]
    exact leads_of_ok hok hpage
  | plot kind =>
    cases hm
    obtain ⟨hpage, hquiet⟩ := Page.nested_plot (v := v) s.isLive kind h
    exact .inr ⟨hpage, hquiet⟩
  | branch word rest => exact leads_branch hv hargument hb hm h
  | content =>
    cases hm
    refine leads_content hv ?_ h
    rw [hchars]
    exact hline.chars
  | loop word argument =>
    obtain rfl := hloop word argument rfl
    cases hm
    obtain ⟨hpage, hquiet⟩ := Page.nested_previewRepeat (v := v) hargument h
    show Leads _ (s.enterLoop v i argument)
    rw [enterLoop, hv]
    exact .inr ⟨hpage, hquiet⟩

/-- **A step of a preview keeps as many containers open as there are blocks around the line.** -/
theorem leads_step (hline : line.Untagged)
    (htoggle : ∀ scope, line.form ≠ .toggle (.visibility scope))
    (hb : Balanced false around s) (hm : Opener.meet i line.form around = some after)
    (h : s.page.Nested around.length) : Leads after.length (s.step false line i) := by
  rw [step]
  dsimp only
  split
  · next argument hf =>
    rw [hf] at hm
    obtain ⟨start, rfl⟩ := Opener.meet_closeLoop hm
    exact leads_of_ok rfl (Page.nested_previewLoopWord .closing h rfl)
  · next argument hf =>
    rw [hf] at hm
    cases hm
    exact leads_of_ok rfl (Page.nested_previewLoopWord .leave h rfl)
  · next argument hf =>
    rw [hf] at hm
    cases hm
    exact leads_of_ok rfl (Page.nested_previewLoopWord .next h rfl)
  · next hclosing hleave hnext =>
    have hloop := LineForm.opening_of_ne hclosing hleave hnext
    exact (leads_visitPlain rfl hline rfl htoggle hloop hb hm h).next

omit [Plotter ρ Arithmetic.Engine] in
/-- What follows from a step reports it at most. -/
theorem nested_follow {r : Except Fault Flow × Pass Arithmetic.Engine ρ} (hr : Leaves n r)
    (hchars : '<' ∉ line.chars) (hfollow : follow line i r = .go j t) : t.page.Nested n := by
  rcases r with ⟨fault | (_ | next | _), u⟩
  · rw [follow] at hfollow
    split at hfollow
    · cases hfollow
    · cases hfollow
      have htext : Tags.Plain line.text.toList := by
        rw [Line.text, String.toList_ofList]
        exact Tags.plain_of_not_mem hchars
      exact hr.page.write (.single (Piece.plain_lineError _ htext (hr.quiet fault rfl)) n)
  · cases hfollow
    exact hr.page
  · cases hfollow
    exact hr.page
  · cases hfollow

/-! ### A whole preview -/

/-- At a position, as many containers are open as there are blocks around it. -/
def NestedAt (lines : Array Line) (i : Nat) (s : Pass Arithmetic.Engine ρ) : Prop :=
  ∃ around, Sheet.around lines i = some around ∧ Balanced false around s ∧
    s.page.Nested around.length

/-- Every place that a preview comes to has as many containers open as there are blocks around
it, unless some condition is missing. -/
theorem Reaches.nested {source : String} (hn : Sheet.WellNested (Sheet.lines source))
    (hsource : '<' ∉ source.toList)
    (htoggles : ∀ line ∈ (Sheet.lines source).toList, ∀ scope,
      line.form ≠ .toggle (.visibility scope))
    (hstart : NestedAt (Sheet.lines source) 0 s)
    (hconditions : ∀ i t line, Reaches false (Sheet.lines source) 0 s i t →
      (Sheet.lines source)[i]? = some line →
      (t.step false line i).1 ≠ .error (.structural .emptyCondition))
    (hr : Reaches false (Sheet.lines source) 0 s j t) : NestedAt (Sheet.lines source) j t := by
  induction hr with
  | here => exact hstart
  | @onward i j t u hreaches ht ih =>
    obtain ⟨around, haround, hb, hpage⟩ := ih
    obtain ⟨line, hl, -, hfollow⟩ := tick_go ht
    obtain ⟨around', after, haround', hafter, hm⟩ := hn.meet hl
    rw [haround] at haround'
    cases haround'
    have hline := Line.untagged_of_not_mem hsource hl
    have htoggle := htoggles line (Array.mem_toList_iff.mpr (Array.mem_of_getElem? hl))
    have hleaves := (leads_step hline htoggle hb hm hpage).resolve_left
      (hconditions i t line hreaches hl)
    -- a preview goes on with the next line
    obtain ⟨u', hnext⟩ := follow_preview Arithmetic.Engine.readAlike.safe line i hpage.plots
    rw [hfollow] at hnext
    cases hnext
    obtain ⟨_, hbefore, hbalanced⟩ := balancedAt_tick hn ⟨around, haround, hb⟩ ht
    rw [hafter] at hbefore
    cases hbefore
    exact ⟨after, hafter, hbalanced, nested_follow hleaves hline.chars hfollow⟩

omit [Plotter ρ Arithmetic.Engine] in
theorem bare_of_visitContent {v : Visit} {word : Option BranchWord} {body : List Char}
    (h : (s.visitContent v word body).1 = .error (.structural .emptyCondition)) :
    body = [] ∧ (word = some .opening ∨ word = some .alternative) := by
  rw [visitContent] at h
  split at h
  · next henter =>
    cases h
    exact absurd henter (Conditions.enter_ne_emptyCondition word s.conditions)
  · next d henter =>
    obtain ⟨-, ⟨word, rfl⟩, hbody, hpending⟩ := Page.content_structural h
    rw [Conditions.eq_of_enter henter] at hpending
    refine ⟨hbody, ?_⟩
    cases word with
    | opening => exact .inl rfl
    | alternative => exact .inr rfl
    | otherwise => cases hpending
    | closing => cases hpending

/-- In a preview, a condition is missing only where `#if` or `#else if` stands alone. -/
theorem bare_of_emptyCondition
    (h : (s.step false line i).1 = .error (.structural .emptyCondition)) :
    line.form = .branch .opening [] ∨ line.form = .branch .alternative [] := by
  have hplain : (s.visitPlain (s.visit false line i) i line.form).1.map (fun _ => Flow.next) =
      .error (.structural .emptyCondition) →
      (s.visitPlain (s.visit false line i) i line.form).1 =
        .error (.structural .emptyCondition) := eq_error_of_plainOutcome
  obtain ⟨text, form⟩ := line
  cases form with
  | branch word rest =>
    obtain ⟨rfl, hword⟩ := bare_of_visitContent (hplain h)
    rcases hword with hword | hword
    · cases hword
      exact .inl rfl
    · cases hword
      exact .inr rfl
  | content =>
    obtain ⟨-, hword⟩ := bare_of_visitContent (hplain h)
    rcases hword with hword | hword
    · cases hword
    · cases hword
  | loop word argument =>
    cases word with
    | opening => exact absurd (hplain h) (enterLoop_structural _)
    | closing => cases h
    | leave => cases h
    | next => cases h
  | round argument => exact absurd (hplain h) (Page.round_structural _)
  | plot kind => exact absurd (hplain h) (Page.plot_structural _)
  | blank => cases hplain h
  | toggle t => cases hplain h

end Pass

/-! ### Whole previews -/

namespace Workbench

variable [Plotter ρ Arithmetic.Engine]

/-- The pieces of a preview nest. -/
theorem nests_pieces (source : String) (inputs : List String) (w : Workbench Arithmetic.Engine ρ)
    (hn : Sheet.WellNested (Sheet.lines source)) (hsource : '<' ∉ source.toList)
    (htoggles : ∀ line ∈ (Sheet.lines source).toList, ∀ scope,
      line.form ≠ .toggle (.visibility scope))
    (hplots : w.plots = none) (hflag : w.cancel.raised = false)
    (hconditions : ∀ i s line, w.ComesTo source false inputs i s →
      (Sheet.lines source)[i]? = some line →
      (s.step false line i).1 ≠ .error (.structural .emptyCondition)) :
    Piece.Nests 0 (w.pieces source false inputs).1 0 := by
  have hstart : Pass.NestedAt (Sheet.lines source) 0 (w.startPass false inputs) :=
    ⟨[], rfl, Pass.balanced_start false inputs _ w, .nil 0, rfl, hplots⟩
  -- the preview is completed where no line is left, and nothing is open there
  obtain ⟨j, t, hreaches, hdone⟩ :=
    Pass.exists_reaches_done false (Sheet.lines source) 0 (w.startPass false inputs)
  have hending := (visits_preview Arithmetic.Engine.readAlike source inputs hplots hflag).2
  obtain ⟨around, haround, hbalanced, hpage⟩ :=
    hreaches.nested hn hsource htoggles hstart hconditions
  rw [pieces_eq]
  dsimp only
  generalize (w.startPass false inputs).run false (Sheet.lines source) 0 = r at hdone hending ⊢
  obtain ⟨ending, s⟩ := r
  obtain rfl : ending = .completed := hending
  dsimp only at hdone
  obtain ⟨hj, rfl⟩ := Pass.tick_completed hdone
  obtain ⟨hdepth, hblocks⟩ := Pass.closed_at_end hn ⟨around, haround, hbalanced⟩ hj
  obtain rfl := hn.around_end haround hj
  have hunclosed : s.unclosed = [] := by
    simp [Pass.unclosed, hdepth, hblocks]
  rw [if_pos rfl, hunclosed, List.append_nil]
  exact hpage.output

/-- **The containers of a preview balance.**  For every well-nested sheet without the bracket
that opens a tag and without the toggles of what is visible, with length units without the
bracket and without a plotter: unless a condition is missing in the preview, its markup has as
many tags that open a container as tags that close one, and no part that it begins with closes
more of them than it opens.  Conditions and counts need not be readable, and `#else` and
`#end if` may have something behind them. -/
theorem preview_containers_balanced (source : String) (inputs : List String)
    (w : Workbench Arithmetic.Engine ρ) (hn : Sheet.WellNested (Sheet.lines source))
    (hsource : '<' ∉ source.toList)
    (htoggles : ∀ line ∈ (Sheet.lines source).toList, ∀ scope,
      line.form ≠ .toggle (.visibility scope))
    (hunits : '<' ∉ w.settings.units.toList) (hplots : w.plots = none)
    (hflag : w.cancel.raised = false)
    (hconditions : ∀ i s line, w.ComesTo source false inputs i s →
      (Sheet.lines source)[i]? = some line →
      (s.step false line i).1 ≠ .error (.structural .emptyCondition)) :
    let html := (w.compile source false inputs).1.toList
    Tags.count Tags.opening html = Tags.count Tags.closing html ∧
      ∀ part, part <+: html → Tags.count Tags.closing part ≤ Tags.count Tags.opening part := by
  have hnests := nests_pieces source inputs w hn hsource htoggles hplots hflag hconditions
  have hrounded := Pass.rounded_runUnder (fun _ => false) false (Sheet.lines source) 0
    (w.startPass false inputs)
  rw [Pass.runUnder_never] at hrounded
  have hbare : '<' ∉ (w.pieces source false inputs).2.page.settings.units.toList := by
    rw [pieces_eq]
    dsimp only
    rw [hrounded.units]
    exact hunits
  exact Tags.balanced_fillUnits hnests.render hbare

/-- A loop with a count that cannot be read, around a group with two such conditions and with
something behind its `#else` and its `#end if`. -/
def unreadable : String :=
  "#repeat 1 +\n#if (\n'a'\n#else if x +\n'b'\n#else y\n'c'\n#end if 'd'\n#loop"

/-- The containers of the preview of `unreadable`. -/
theorem preview_containers_balanced_unreadable :
    let html := (fresh.compile unreadable false []).1.toList
    Tags.count Tags.opening html = Tags.count Tags.closing html ∧
      ∀ part, part <+: html → Tags.count Tags.closing part ≤ Tags.count Tags.opening part := by
  have hforms : ∀ line ∈ (Sheet.lines unreadable).toList,
      line.form ∉ ([.branch .opening [], .branch .alternative [], .toggle (.visibility .hidden),
        .toggle (.visibility .shown), .toggle (.visibility .previewOnly),
        .toggle (.visibility .calculatedOnly)] : List LineForm) := by
    decide +kernel
  refine preview_containers_balanced unreadable [] fresh (by decide +kernel) (by decide) ?_
    (by decide) rfl rfl ?_
  · intro line hl scope hform
    refine hforms line hl ?_
    rw [hform]
    cases scope with
    | hidden => decide
    | shown => decide
    | previewOnly => decide
    | calculatedOnly => decide
  · intro i s line _ hl hempty
    refine hforms line (Array.mem_toList_iff.mpr (Array.mem_of_getElem? hl)) ?_
    rcases Pass.bare_of_emptyCondition hempty with hform | hform
    · rw [hform]
      decide
    · rw [hform]
      decide

end Workbench

end Worksheet
