/-
Which value each placeholder takes.

Placeholders are numbered in the order of the sheet, and the values of the inputs belong to
them in turn, starting over when they are used up.  In a sheet without loops, every line
moves the queue past its own placeholders, whether it is evaluated or passed over, with one
exception: a further test of a live group that has matched leaves its placeholders behind.
So an expression reads its values that many positions too early, and it gets its own values
exactly if the number of placeholders left behind is a multiple of the number of values.

* `Line.leftBehind` — the placeholders that a visit leaves in the queue;
* `Pass.reads_step` — what one visit asks and takes;
* `Workbench.placeholder_position` — the value that each placeholder is given.
-/
import Worksheet.Proofs.BalancedPass
import Worksheet.Proofs.Miscounts
import Worksheet.Proofs.Reading
import Worksheet.Proofs.Recorder
import Mathlib.Data.Nat.ModEq

namespace Worksheet

/-! ### Sheets without loops -/

/-- The forms of the lines of a sheet that is read straight on: none opens or leaves a loop,
sets the precision or plots. -/
def LineForm.Straight : LineForm → Prop
  | .loop .opening _ => False
  | .loop .leave _ => False
  | .round _ => False
  | .plot _ => False
  | _ => True

instance (form : LineForm) : Decidable form.Straight :=
  match form with
  | .loop .opening _ => inferInstanceAs (Decidable False)
  | .loop .leave _ => inferInstanceAs (Decidable False)
  | .loop .closing _ => inferInstanceAs (Decidable True)
  | .loop .next _ => inferInstanceAs (Decidable True)
  | .round _ => inferInstanceAs (Decidable False)
  | .plot _ => inferInstanceAs (Decidable False)
  | .blank => inferInstanceAs (Decidable True)
  | .toggle _ => inferInstanceAs (Decidable True)
  | .branch _ _ => inferInstanceAs (Decidable True)
  | .content => inferInstanceAs (Decidable True)

/-- A line without its loop word. -/
def Line.withoutLoopWord (l : Line) : Line :=
  match l.form with
  | .loop _ _ => { l with form := .blank }
  | _ => l

/-- The groups of a sheet nest, whatever its loop words. -/
def Sheet.GroupsNest (lines : Array Line) : Prop :=
  WellNested (lines.map Line.withoutLoopWord)

instance (lines : Array Line) : Decidable (Sheet.GroupsNest lines) :=
  inferInstanceAs (Decidable (Sheet.WellNested _))

/-- The placeholders that a visit leaves in the queue: those of a further test, if the
group around it has matched and lies in branches that are taken. -/
def Line.leftBehind (c : Conditions) (l : Line) : Nat :=
  match l.form with
  | .branch .alternative _ =>
    if c.enclosing.all Branch.taken && c.matched then l.placeholders else 0
  | _ => 0

namespace Conditions

/-- What is left behind is decided by the groups as they are once the word was entered: the
line is live, its group has matched, and its condition is pending. -/
theorem leftBehind_eq {c d : Conditions} {word : BranchWord} (text rest : List Char)
    (hs : c.Sound) (h : c.enter (some word) = .ok d) :
    Line.leftBehind c ⟨text, .branch word rest⟩ =
      if live d.branches [] && (d.matched && d.pending) then placeholderCount rest else 0 := by
  have hd := eq_of_enter h
  cases word with
  | opening =>
    -- a group that is opened where lines are live has not matched
    have hbranches : d.branches = ⟨true, .tested⟩ :: c.branches := by
      rw [hd]
      rfl
    have hunmatched : (live c.branches [] && d.matched) = false := by
      have hm : d.matched = if c.isTaken then false else c.matched := by
        rw [hd]
        rfl
      rw [hm, isTaken_eq hs, live]
      rcases c.branches.all Branch.taken with _ | _
      · rfl
      · rfl
    rw [hbranches, live_cons, Bool.true_and, ← Bool.and_assoc, hunmatched, Bool.false_and]
    rfl
  | alternative =>
    have hbranches : d.branches = ⟨true, .tested⟩ :: c.enclosing := by
      rw [hd]
      rfl
    have hmatched : (d.matched && d.pending) = c.matched := by
      rw [hd]
      exact Bool.and_true _
    rw [hbranches, live_cons, Bool.true_and, hmatched]
    show _ = if (c.enclosing.all Branch.taken && true) && c.matched
      then placeholderCount rest else 0
    rw [Bool.and_true]
    rfl
  | otherwise =>
    have hpending : d.pending = false := by
      rw [hd]
      rfl
    rw [hpending, Bool.and_false, Bool.and_false]
    rfl
  | closing =>
    have hpending : d.pending = false := by
      rw [hd]
      rfl
    rw [hpending, Bool.and_false, Bool.and_false]
    rfl

end Conditions

/-! ### One visit -/

namespace Pass

section Course

variable {σ ρ : Type} [MathEngine σ] [Plotter ρ σ] {around after : List Opener} {l : Line}
  {i : Nat} {s : Pass σ ρ}

/-- Without open blocks, `#loop` and `#continue` do nothing, apart from a report. -/
theorem step_unlooped {word : LoopWord} {text argument : List Char}
    (hword : word = .closing ∨ word = .next) (hblocks : s.loops.blocks = []) :
    (s.step true ⟨text, .loop word argument⟩ i).2 = s ∧
      jumpOf (s.step true ⟨text, .loop word argument⟩ i).1 = none := by
  obtain ⟨conditions, ⟨blocks, count⟩, page⟩ := s
  obtain rfl : blocks = [] := hblocks
  rcases hword with rfl | rfl
  · show (closeLoop _ _).2 = _ ∧ jumpOf (closeLoop _ _).1 = none
    rw [closeLoop, if_neg (by simp [visit])]
    split
    · exact ⟨rfl, rfl⟩
    · exact ⟨rfl, rfl⟩
  · show (continueLoop _ _).2 = _ ∧ jumpOf (continueLoop _ _).1 = none
    rw [continueLoop, if_neg (by simp [visit])]
    split
    · exact ⟨rfl, rfl⟩
    · exact ⟨rfl, rfl⟩

/-- Without open blocks, a visit to a straight line leaves the blocks as they are, goes on
with the next line, and keeps the pass balanced as far as groups go. -/
theorem step_straight (hb : Balanced true around s) (hblocks : s.loops.blocks = [])
    (hstraight : l.form.Straight)
    (hm : Opener.meet i l.withoutLoopWord.form around = some after) :
    (s.step true l i).2.loops = s.loops ∧ jumpOf (s.step true l i).1 = none ∧
      ((∃ fault, (s.step true l i).1 = .error fault ∧ fault.isFatal = true) ∨
        Balanced true after (s.step true l i).2) := by
  obtain ⟨text, form⟩ := l
  have hloops : ∀ (v : Visit) (word : Option BranchWord) (body : List Char),
      (s.visitContent v word body).2.loops = s.loops := by
    intro v word body
    rw [visitContent]
    split
    · rfl
    · rfl
  have hkeeps : ∀ r : Except Fault Unit × Pass σ ρ, Keeps true after r →
      (∃ fault, r.1.map (fun _ => Flow.next) = .error fault ∧ fault.isFatal = true) ∨
        Balanced true after r.2 := by
    rintro r (⟨fault, hr, hfatal⟩ | hb)
    · refine .inl ⟨fault, ?_, hfatal⟩
      rw [hr]
      rfl
    · exact .inr hb
  -- `#loop` and `#continue` find no block, and leave the groups alone as well
  have hunlooped : ∀ {word : LoopWord} {argument : List Char},
      word = .closing ∨ word = .next → around = after →
      (s.step true ⟨text, .loop word argument⟩ i).2.loops = s.loops ∧
        jumpOf (s.step true ⟨text, .loop word argument⟩ i).1 = none ∧
        ((∃ fault, (s.step true ⟨text, .loop word argument⟩ i).1 = .error fault ∧
          fault.isFatal = true) ∨
          Balanced true after (s.step true ⟨text, .loop word argument⟩ i).2) := by
    rintro word argument hword rfl
    obtain ⟨hsame, hjump⟩ := step_unlooped hword hblocks
    rw [hsame]
    exact ⟨rfl, hjump, .inr hb⟩
  cases form with
  | blank =>
    cases hm
    exact ⟨rfl, rfl, .inr (hb.congr rfl rfl)⟩
  | toggle t =>
    cases hm
    exact ⟨rfl, rfl, .inr (hb.congr rfl rfl)⟩
  | round argument => exact hstraight.elim
  | plot kind => exact hstraight.elim
  | branch word rest =>
    exact ⟨hloops _ _ _, jumpOf_plainOutcome _, hkeeps _ (balanced_branch hb hm)⟩
  | content =>
    cases hm
    have hcontent : Keeps true around
        (s.visitContent (s.visit true ⟨text, .content⟩ i) none text) := balanced_content hb
    exact ⟨hloops _ none text, jumpOf_plainOutcome _, hkeeps _ hcontent⟩
  | loop word argument =>
    cases word with
    | opening => exact hstraight.elim
    | leave => exact hstraight.elim
    | closing => exact hunlooped (.inl rfl) (Option.some.inj hm)
    | next => exact hunlooped (.inr rfl) (Option.some.inj hm)

end Course

/-- What a visit asks and takes: it asks for expressions of its line, one after the other
from the first on, and unless it ends the pass, it takes a value for each placeholder that
is not left behind. -/
structure Reads {σ ρ : Type} (l : Line) (s : Pass (Recorder σ) ρ)
    (r : Except Fault Flow × Pass (Recorder σ) ρ) : Prop where
  asked : ∃ asked, r.2.page.engine.asked = s.page.engine.asked ++ asked ∧
    asked <+: readings s.page.inputs (expressionsOf l.body)
  taken : (∃ fault, r.1 = .error fault ∧ fault.isFatal = true) ∨
    ∃ n, r.2.page.inputs = s.page.inputs.skip n ∧ n + l.leftBehind s.conditions = l.placeholders

section Reading

variable {σ ρ : Type} {l : Line} {s : Pass (Recorder σ) ρ}
  {r : Except Fault Flow × Pass (Recorder σ) ρ}

/-- A visit that asks nothing, and takes as many values as it has to. -/
theorem Reads.of_skip {n : Nat} (hasked : r.2.page.engine.asked = s.page.engine.asked)
    (hinputs : r.2.page.inputs = s.page.inputs.skip n)
    (hn : n + l.leftBehind s.conditions = l.placeholders) : Reads l s r where
  asked := ⟨[], by rw [hasked, List.append_nil], List.nil_prefix⟩
  taken := .inr ⟨n, hinputs, hn⟩

/-- A visit that asks for all expressions of its line, if it does not end the pass. -/
theorem Reads.of_asks {c : Conditions} {outcome : Except Fault Unit}
    {page : Page (Recorder σ) ρ}
    (h : Page.Asks (∃ fault, outcome = .error fault ∧ fault.isFatal = true)
      (expressionsOf l.body) s.page page)
    (hquotes : QuotesApart l.body) (hleft : l.leftBehind s.conditions = 0) :
    Reads l s (outcome.map fun _ => .next, { s with conditions := c, page }) := by
  refine ⟨h.some, ?_⟩
  by_cases hfatal : ∃ fault, outcome = .error fault ∧ fault.isFatal = true
  · obtain ⟨fault, rfl, hfatal⟩ := hfatal
    exact .inl ⟨fault, rfl, hfatal⟩
  · refine .inr ⟨_, (h.all hfatal).2, ?_⟩
    rw [hleft, Nat.add_zero, sum_expressionsOf hquotes]
    rfl

variable [MathEngine σ] [Plotter ρ (Recorder σ)] {around after : List Opener} {i : Nat}

/-- A visit to a content line. -/
theorem reads_content {text : List Char} (hs : s.conditions.Sound) (hquotes : QuotesApart text)
    (htakes : ∀ a ∈ (s.step true ⟨text, .content⟩ i).2.page.engine.asked, a.TakesAll σ) :
    Reads ⟨text, .content⟩ s (s.step true ⟨text, .content⟩ i) := by
  rcases hlive : live s.conditions.branches s.loops.blocks with _ | _
  · rw [step_content_of_dead hs hlive]
    exact .of_skip rfl rfl (Nat.add_zero _)
  · rw [step_content] at htakes ⊢
    have hlabel : ({ s.conditions with label := none } : Conditions).Sound := hs
    refine .of_asks (Page.asks_content ?_ (.inl rfl) htakes) hquotes rfl
    rw [live_eq hlabel]
    exact hlive

/-- A visit to a line with a branch word that can be entered. -/
theorem reads_branch {d : Conditions} {word : BranchWord} {text rest : List Char}
    (hs : s.conditions.Sound) (hblocks : s.loops.blocks = [])
    (henter : s.conditions.enter (some word) = .ok d) (hquotes : QuotesApart rest)
    (hcount : placeholderCount text = placeholderCount rest)
    (htakes : ∀ a ∈ (s.step true ⟨text, .branch word rest⟩ i).2.page.engine.asked,
      a.TakesAll σ) :
    Reads ⟨text, .branch word rest⟩ s (s.step true ⟨text, .branch word rest⟩ i) := by
  have hd : d.Sound := hs.enter henter
  have hleft := Conditions.leftBehind_eq text rest hs henter
  rw [← hblocks] at hleft
  rcases hlive : live d.branches s.loops.blocks with _ | _
  · -- passed over: all placeholders of the line are skipped
    rw [hlive] at hleft
    rw [step_branch_of_dead henter hd hlive]
    refine .of_skip rfl rfl ?_
    rw [hleft, hcount]
    rfl
  rw [hlive, Bool.true_and] at hleft
  by_cases hmatched : (d.matched && d.pending) = true ∧ rest ≠ []
  · -- a further test of a group that has matched: nothing is read, and nothing skipped
    obtain ⟨hmatched, hrest⟩ := hmatched
    rw [hmatched, if_pos rfl] at hleft
    rw [Bool.and_eq_true] at hmatched
    rw [step_matched henter hd hlive hmatched.1 hmatched.2 hrest]
    refine .of_skip (n := 0) rfl rfl ?_
    rw [hleft, Nat.zero_add]
    rfl
  · have hopen : rest = [] ∨ (d.matched && d.pending) = false := by
      rcases hm : d.matched && d.pending with _ | _
      · exact .inr rfl
      · refine .inl ?_
        by_contra hrest
        exact hmatched ⟨hm, hrest⟩
    rw [step_word henter] at htakes ⊢
    refine .of_asks (Page.asks_content ?_ (.inr hopen) htakes) hquotes ?_
    · rw [live_eq hd]
      exact hlive
    · rw [hleft]
      rcases hopen with rfl | hopen
      · exact ite_self 0
      · rw [hopen]
        rfl

/-- Every visit to a straight line asks for expressions of the line only, and takes a value
for each placeholder that is not left behind. -/
theorem reads_step (hb : Balanced true around s) (hblocks : s.loops.blocks = [])
    (hstraight : l.form.Straight)
    (hm : Opener.meet i l.withoutLoopWord.form around = some after)
    (hquotes : QuotesApart l.body)
    (hcount : ∀ word rest, l.form = .branch word rest →
      placeholderCount l.chars = placeholderCount rest)
    (htakes : ∀ a ∈ (s.step true l i).2.page.engine.asked, a.TakesAll σ) :
    Reads l s (s.step true l i) := by
  obtain ⟨text, form⟩ := l
  -- lines without a body ask nothing, take nothing and leave nothing behind
  have hidle : ∀ {form : LineForm}, Line.body ⟨text, form⟩ = [] →
      Line.leftBehind s.conditions ⟨text, form⟩ = 0 →
      (s.step true ⟨text, form⟩ i).2.page.engine.asked = s.page.engine.asked →
      (s.step true ⟨text, form⟩ i).2.page.inputs = s.page.inputs →
      Reads ⟨text, form⟩ s (s.step true ⟨text, form⟩ i) := by
    intro form hbody hleft hasked hinputs
    refine .of_skip (n := 0) hasked hinputs ?_
    rw [hleft, Line.placeholders, hbody]
    rfl
  cases form with
  | blank =>
    have hkeeps := Page.writeIf_keeps (s.page.visible && (!true || s.isLive))
      [.openParagraph (s.visit true ⟨text, .blank⟩ i).anchor, .text "&nbsp;", .closeParagraph,
        .lineEnd] s.page
    exact hidle rfl rfl (congrArg Recorder.asked hkeeps.1) hkeeps.2
  | toggle t =>
    refine hidle rfl rfl ?_ ?_
    · rcases t with (_ | _ | _ | _) | _ | _ | _ <;> rfl
    · rcases t with (_ | _ | _ | _) | _ | _ | _ <;> rfl
  | round argument => exact hstraight.elim
  | plot kind => exact hstraight.elim
  | content => exact reads_content hb.sound hquotes htakes
  | branch word rest =>
    obtain ⟨d, henter, -, -⟩ := fits_enter hb.fits hm
    exact reads_branch hb.sound hblocks henter hquotes (hcount word rest rfl) htakes
  | loop word argument =>
    have hsame : (s.step true ⟨text, .loop word argument⟩ i).2 = s := by
      cases word with
      | opening => exact hstraight.elim
      | leave => exact hstraight.elim
      | closing => exact (step_unlooped (.inl rfl) hblocks).1
      | next => exact (step_unlooped (.inr rfl) hblocks).1
    exact hidle rfl rfl (by rw [hsame]) (by rw [hsame])

end Reading

/-! ### The places of a pass, with what was left behind -/

/-- A place of a pass: a position and the state there, and how many placeholders were left
behind on the way. -/
structure Place (σ ρ : Type) where
  index : Nat
  left : Nat
  state : Pass σ ρ

section Places

variable {σ ρ : Type} [MathEngine σ] [Plotter ρ σ]

/-- The next place of a pass, if it goes on. -/
def Place.next (lines : Array Line) (p : Place σ ρ) : Option (Place σ ρ) :=
  match lines[p.index]?, p.state.tick true lines p.index with
  | some l, .go index state => some ⟨index, p.left + l.leftBehind p.state.conditions, state⟩
  | _, _ => none

theorem Place.next_eq_some {lines : Array Line} {p p' : Place σ ρ} (h : p.next lines = some p') :
    ∃ l, lines[p.index]? = some l ∧ p.state.isCancelled = false ∧
      follow l p.index (p.state.step true l p.index) = .go p'.index p'.state ∧
      p'.left = p.left + l.leftBehind p.state.conditions := by
  rw [next] at h
  split at h
  · next l index state hl ht =>
    cases h
    obtain ⟨l', hl', hcancelled, hfollow⟩ := tick_go ht
    rw [hl] at hl'
    obtain rfl := Option.some.inj hl'
    exact ⟨l, hl, hcancelled, hfollow, rfl⟩
  · cases h

end Places

/-- A place of a pass over a sheet without loops: its groups fit the lines around it, and
its queue is where the placeholders before it, without those left behind, lead. -/
structure Aligned {σ ρ : Type} (inputs : List String) (lines : Array Line)
    (p : Place (Recorder σ) ρ) : Prop where
  balanced : BalancedAt true (lines.map Line.withoutLoopWord) p.index p.state
  unlooped : p.state.loops.blocks = []
  values : p.state.page.inputs.values = inputs
  left_le : p.left ≤ Sheet.placeholdersBefore lines p.index
  position : (p.state.page.inputs.position + p.left) % inputs.length =
    Sheet.placeholdersBefore lines p.index % inputs.length

/-- A pass starts aligned. -/
theorem aligned_start {σ ρ : Type} [MathEngine σ] (inputs : List String) (lines : Array Line)
    (w : Workbench (Recorder σ) ρ) : Aligned inputs lines ⟨0, 0, w.startPass true inputs⟩ where
  balanced := ⟨[], rfl, balanced_start true inputs _ w⟩
  unlooped := rfl
  values := rfl
  left_le := Nat.le_refl _
  position := by
    show ((if 0 < inputs.length then 0 else 0) + 0) % inputs.length = 0 % inputs.length
    rw [ite_self]

section Alignment

variable {σ ρ : Type} [MathEngine σ] [Plotter ρ (Recorder σ)] {inputs : List String}
  {lines : Array Line} {p p' : Place (Recorder σ) ρ} {l : Line}

/-- What a visit does at an aligned place. -/
theorem Aligned.visit (h : Aligned inputs lines p) (hn : Sheet.GroupsNest lines)
    (hl : lines[p.index]? = some l) (hstraight : l.form.Straight)
    (hquotes : QuotesApart l.body)
    (hcount : ∀ word rest, l.form = .branch word rest →
      placeholderCount l.chars = placeholderCount rest)
    (htakes : ∀ a ∈ (p.state.step true l p.index).2.page.engine.asked, a.TakesAll σ) :
    Reads l p.state (p.state.step true l p.index) ∧
      (p.state.step true l p.index).2.loops = p.state.loops ∧
      jumpOf (p.state.step true l p.index).1 = none ∧
      ((∃ fault, (p.state.step true l p.index).1 = .error fault ∧ fault.isFatal = true) ∨
        BalancedAt true (lines.map Line.withoutLoopWord) (p.index + 1)
          (p.state.step true l p.index).2) := by
  have hl' : (lines.map Line.withoutLoopWord)[p.index]? = some l.withoutLoopWord := by
    rw [Array.getElem?_map, hl]
    rfl
  obtain ⟨around, after, haround, hafter, hm⟩ := hn.meet hl'
  obtain ⟨around', haround', hb⟩ := h.balanced
  rw [haround] at haround'
  obtain rfl := Option.some.inj haround'
  obtain ⟨hloops, hjump, hnext⟩ := step_straight hb h.unlooped hstraight hm
  refine ⟨reads_step hb h.unlooped hstraight hm hquotes hcount htakes, hloops, hjump, ?_⟩
  rcases hnext with hfatal | hb'
  · exact .inl hfatal
  · exact .inr ⟨after, hafter, hb'⟩

/-- One step leads from an aligned place to another one. -/
theorem Aligned.next (h : Aligned inputs lines p) (hn : Sheet.GroupsNest lines)
    (hinputs : inputs ≠ []) (hstraight : ∀ l ∈ lines.toList, l.form.Straight)
    (hquotes : ∀ l ∈ lines.toList, QuotesApart l.body)
    (hcount : ∀ l ∈ lines.toList, ∀ word rest, l.form = .branch word rest →
      placeholderCount l.chars = placeholderCount rest)
    (htakes : ∀ l, lines[p.index]? = some l → p.state.isCancelled = false →
      ∀ a ∈ (p.state.step true l p.index).2.page.engine.asked, a.TakesAll σ)
    (hp : p.next lines = some p') : Aligned inputs lines p' := by
  obtain ⟨l, hl, hcancelled, hfollow, hleft⟩ := Place.next_eq_some hp
  have hmem : l ∈ lines.toList := Array.mem_toList_iff.mpr (Array.mem_of_getElem? hl)
  obtain ⟨hreads, hloops, hjump, hnext⟩ := h.visit hn hl (hstraight l hmem) (hquotes l hmem)
    (hcount l hmem) (htakes l hl hcancelled)
  obtain ⟨hindex, hloops', hconditions'⟩ := follow_go hfollow
  obtain ⟨hqueue, hnotFatal⟩ := follow_go_inputs hfollow
  rw [hjump] at hindex
  have hindex : p'.index = p.index + 1 := hindex
  -- the step went on, so its fault, if any, is only reported
  have hgoes : ¬∃ fault, (p.state.step true l p.index).1 = .error fault ∧
      fault.isFatal = true := by
    rintro ⟨fault, hfault, hfatal⟩
    rw [hnotFatal fault hfault] at hfatal
    cases hfatal
  obtain ⟨around, haround, hb⟩ := hnext.resolve_left hgoes
  obtain ⟨n, hskip, hn'⟩ := hreads.taken.resolve_left hgoes
  have hvalues : p.state.page.inputs.values ≠ [] := by
    rw [h.values]
    exact hinputs
  have hbefore := Sheet.placeholdersBefore_succ hl
  have hposition := h.position
  have hle := h.left_le
  refine ⟨?_, ?_, ?_, ?_, ?_⟩
  · rw [hindex]
    exact ⟨around, haround, hb.congr hloops' hconditions'⟩
  · rw [hloops', hloops]
    exact h.unlooped
  · rw [hqueue, hskip, InputQueue.values_skip]
    exact h.values
  · rw [hindex, hbefore, hleft]
    omega
  · -- what the line takes and what it leaves behind make up its placeholders
    rw [hindex, hbefore, hleft, hqueue, hskip, InputQueue.position_skip hvalues, h.values,
      Nat.mod_add_mod,
      show p.state.page.inputs.position + n + (p.left + l.leftBehind p.state.conditions) =
        p.state.page.inputs.position + p.left + (n + l.leftBehind p.state.conditions) by omega,
      hn', Nat.add_mod, hposition, ← Nat.add_mod]

omit [MathEngine σ] [Plotter ρ (Recorder σ)] in
/-- An expression of a line at an aligned place reads each of its values as many positions
too early as placeholders were left behind. -/
theorem Aligned.position_skip (h : Aligned inputs lines p) (hinputs : inputs ≠ []) (k : Nat) :
    (p.state.page.inputs.skip k).position =
        (Sheet.placeholdersBefore lines p.index + k - p.left) % inputs.length ∧
      ((p.state.page.inputs.skip k).position =
          (Sheet.placeholdersBefore lines p.index + k) % inputs.length ↔
        inputs.length ∣ p.left) := by
  have hvalues : p.state.page.inputs.values ≠ [] := by
    rw [h.values]
    exact hinputs
  have hle := h.left_le
  obtain ⟨m, hm⟩ : ∃ m, Sheet.placeholdersBefore lines p.index = m + p.left :=
    ⟨_, (Nat.sub_add_cancel hle).symm⟩
  -- the queue is behind by what was left: `m` values were taken
  have hposition : p.state.page.inputs.position % inputs.length = m % inputs.length := by
    have hcongr : p.state.page.inputs.position + p.left ≡ m + p.left [MOD inputs.length] := by
      rw [← hm]
      exact h.position
    exact hcongr.add_right_cancel' _
  have hearly : (p.state.page.inputs.skip k).position = (m + k) % inputs.length := by
    rw [InputQueue.position_skip hvalues, h.values, Nat.add_mod, hposition, ← Nat.add_mod]
  rw [hm, hearly]
  constructor
  · congr 1
    omega
  · rw [show m + p.left + k = m + k + p.left by omega]
    -- the two positions agree if their difference is a multiple of the number of values
    have hdvd := Nat.modEq_iff_dvd' (n := inputs.length) (Nat.le_add_right (m + k) p.left)
    rw [Nat.add_sub_cancel_left] at hdvd
    exact hdvd

omit [MathEngine σ] [Plotter ρ (Recorder σ)] in
/-- The value at the head of the queue of an aligned place, some values on. -/
theorem Aligned.getElem?_skip (h : Aligned inputs lines p) (hinputs : inputs ≠ []) (k : Nat) :
    inputs[(Sheet.placeholdersBefore lines p.index + k - p.left) % inputs.length]? =
      some (p.state.page.inputs.skip k).next.1 := by
  have hvalues : p.state.page.inputs.values ≠ [] := by
    rw [h.values]
    exact hinputs
  have hvalue := InputQueue.getElem?_skip hvalues k
  rw [h.values, (h.position_skip hinputs k).1] at hvalue
  exact hvalue

end Alignment

end Pass

/-- The number of the first placeholder of an expression, in the order of the sheet. -/
def Sheet.numberOf (lines : Array Line) (i : Nat) (l : Line) (m : Nat) : Nat :=
  placeholdersBefore lines i + takenBy ((expressionsOf l.body).take m)

namespace Workbench

section Places

variable {σ ρ : Type} [MathEngine σ] [Plotter ρ σ]

/-- The place that a pass over a source comes to after a number of steps. -/
def place (source : String) (inputs : List String) (w : Workbench σ ρ) :
    Nat → Option (Pass.Place σ ρ)
  | 0 => some ⟨0, 0, w.startPass true inputs⟩
  | n + 1 => (w.place source inputs n).bind (Pass.Place.next (Sheet.lines source))

/-- A visit of a pass: it comes to a line, and was not asked to stop. -/
def Visits (source : String) (inputs : List String) (w : Workbench σ ρ)
    (p : Pass.Place σ ρ) (l : Line) : Prop :=
  (∃ n, w.place source inputs n = some p) ∧ (Sheet.lines source)[p.index]? = some l ∧
    p.state.isCancelled = false

/-- Every position and state that a pass comes to is one of its places. -/
theorem exists_place {source : String} {inputs : List String} {w : Workbench σ ρ} {i : Nat}
    {s : Pass σ ρ} (h : w.ComesTo source true inputs i s) :
    ∃ n left, w.place source inputs n = some ⟨i, left, s⟩ := by
  induction h with
  | here => exact ⟨0, 0, rfl⟩
  | @onward j k t u _ ht ih =>
    obtain ⟨n, left, hplace⟩ := ih
    obtain ⟨l, hl, -, -⟩ := Pass.tick_go ht
    refine ⟨n + 1, left + l.leftBehind t.conditions, ?_⟩
    rw [place, hplace]
    show Pass.Place.next (Sheet.lines source) ⟨j, left, t⟩ = _
    rw [Pass.Place.next, hl, ht]

/-- Nothing is left behind in a sheet whose further tests take no input values. -/
theorem left_eq_zero {source : String} {inputs : List String} {w : Workbench σ ρ} {n : Nat}
    {p : Pass.Place σ ρ}
    (htests : ∀ l ∈ (Sheet.lines source).toList, ∀ rest, l.form = .branch .alternative rest →
      l.placeholders = 0)
    (hp : w.place source inputs n = some p) : p.left = 0 := by
  induction n generalizing p with
  | zero =>
    cases hp
    rfl
  | succ n ih =>
    obtain ⟨p', hp', hnext⟩ := Option.bind_eq_some_iff.mp hp
    obtain ⟨l, hl, -, -, hleft⟩ := Pass.Place.next_eq_some hnext
    have hmem : l ∈ (Sheet.lines source).toList :=
      Array.mem_toList_iff.mpr (Array.mem_of_getElem? hl)
    rw [hleft, ih hp', Nat.zero_add, Line.leftBehind]
    split
    · next rest hform =>
      rw [htests l hmem rest hform]
      exact ite_self 0
    · rfl

theorem place_eq_none_of_le {source : String} {inputs : List String} {w : Workbench σ ρ}
    {m n : Nat} (hle : m ≤ n) (h : w.place source inputs m = none) :
    w.place source inputs n = none := by
  induction hle with
  | refl => exact h
  | step _ ih =>
    rw [place, ih]
    rfl

end Places

/-- Every place of a pass over a sheet without loops is aligned. -/
theorem aligned_place {σ ρ : Type} [MathEngine σ] [Plotter ρ (Recorder σ)] {source : String}
    {inputs : List String} {w : Workbench (Recorder σ) ρ}
    (hn : Sheet.GroupsNest (Sheet.lines source))
    (hstraight : ∀ l ∈ (Sheet.lines source).toList, l.form.Straight)
    (hquotes : ∀ l ∈ (Sheet.lines source).toList, QuotesApart l.body) (hinputs : inputs ≠ [])
    (htakes : ∀ p l, w.Visits source inputs p l →
      ∀ a ∈ (p.state.step true l p.index).2.page.engine.asked, a.TakesAll σ)
    {n : Nat} {p : Pass.Place (Recorder σ) ρ} (hp : w.place source inputs n = some p) :
    Pass.Aligned inputs (Sheet.lines source) p := by
  induction n generalizing p with
  | zero =>
    obtain rfl := Option.some.inj hp
    exact Pass.aligned_start inputs (Sheet.lines source) w
  | succ n ih =>
    obtain ⟨q, hq, hnext⟩ := Option.bind_eq_some_iff.mp hp
    refine (ih hq).next hn hinputs hstraight hquotes ?_ ?_ hnext
    · intro l hl word rest hform
      exact Line.placeholderCount_branch hl hform
    · intro l hl hcancelled
      exact htakes q l ⟨⟨n, hq⟩, hl, hcancelled⟩

variable {ρ : Type} [Plotter ρ (Recorder Arithmetic.Engine)]

/-- **Which value each placeholder takes**, in a sheet without loops and for every list of
input values.  A visit asks for expressions of its line, and a placeholder of number `k` is
given value number `k - left`, counted around the end of the list, where `left` placeholders
were left behind before.  So it is given value number `k` exactly if the number of values
divides `left`.  What the engine reads is the expression with these values in it. -/
theorem placeholder_position (source : String) (inputs : List String)
    (w : Workbench Arithmetic.Engine ρ) (hn : Sheet.GroupsNest (Sheet.lines source))
    (hstraight : ∀ l ∈ (Sheet.lines source).toList, l.form.Straight)
    (hquotes : ∀ l ∈ (Sheet.lines source).toList, QuotesApart l.body)
    (hinputs : inputs ≠ [])
    (hlexes : ∀ p l, w.recorded.Visits source inputs p l →
      ∀ a ∈ (p.state.step true l p.index).2.page.engine.asked,
        '?' ∈ a.text.toList → Arithmetic.Lexes a.inputs a.text)
    {p : Pass.Place (Recorder Arithmetic.Engine) ρ} {l : Line}
    (hv : w.recorded.Visits source inputs p l) :
    ∃ asked, (p.state.step true l p.index).2.page.engine.asked =
        p.state.page.engine.asked ++ asked ∧
      ∀ (m : Nat) (a : Question), asked[m]? = some a →
        ∃ e, (expressionsOf l.body)[m]? = some e ∧ a.text = String.ofList e ∧
          ('?' ∈ e → ∃ found, (Arithmetic.lexemes a.inputs (Text.trim e)).1 = .ok found ∧
            found.flatMap Arithmetic.Lexeme.shown = Arithmetic.filled a.inputs (Text.trim e)) ∧
          ∀ j < e.count '?',
            let k := Sheet.numberOf (Sheet.lines source) p.index l m + j
            p.left ≤ k ∧
              inputs[(k - p.left) % inputs.length]? = some (a.inputs.skip j).next.1 ∧
              ((a.inputs.skip j).position = k % inputs.length ↔ inputs.length ∣ p.left) := by
  have htakes : ∀ p l, w.recorded.Visits source inputs p l →
      ∀ a ∈ (p.state.step true l p.index).2.page.engine.asked,
        a.TakesAll Arithmetic.Engine := by
    intro p l hv a ha e
    exact Arithmetic.queue_parse (hlexes p l hv a ha) e
  obtain ⟨⟨n, hp⟩, hl, -⟩ := id hv
  have ha := aligned_place hn hstraight hquotes hinputs htakes hp
  have hmem : l ∈ (Sheet.lines source).toList :=
    Array.mem_toList_iff.mpr (Array.mem_of_getElem? hl)
  obtain ⟨hreads, -⟩ := ha.visit hn hl (hstraight l hmem) (hquotes l hmem)
    (fun _ _ hform => Line.placeholderCount_branch hmem hform) (htakes p l hv)
  obtain ⟨asked, hasked, hprefix⟩ := hreads.asked
  refine ⟨asked, hasked, ?_⟩
  intro m a hm
  -- the question is one of the readings of the line, at the queue behind those before it
  have hreading : (readings p.state.page.inputs (expressionsOf l.body))[m]? = some a := by
    obtain ⟨others, heq⟩ := hprefix
    rw [← heq, List.getElem?_append_left (List.getElem?_eq_some_iff.mp hm).1]
    exact hm
  have hread := hlexes p l hv a (by
    rw [hasked]
    exact List.mem_append_right _ (List.mem_of_getElem? hm))
  rw [getElem?_readings] at hreading
  obtain ⟨e, he, rfl⟩ := Option.map_eq_some_iff.mp hreading
  dsimp only at hread
  rw [String.toList_ofList] at hread
  refine ⟨e, he, rfl, ?_, ?_⟩
  · intro hmark
    have hfound := (hread hmark).exists_lexemes
    rw [String.toList_ofList] at hfound
    exact hfound
  intro j hj
  dsimp only
  rw [← InputQueue.skip_add, Sheet.numberOf, Nat.add_assoc]
  refine ⟨?_, ha.getElem?_skip hinputs _, (ha.position_skip hinputs _).2⟩
  exact Nat.le_trans ha.left_le (Nat.le_add_right _ _)

/-! A sheet that leaves a placeholder behind. -/

/-- A further test of a group that has matched, before a line with a placeholder. -/
def matchedTest : String :=
  "#if 1\n#else if ?\n#end if\nb = ?"

/-- The line behind the group of `matchedTest`. -/
def matchedTestLine : Line :=
  ⟨"b = ?".toList, .content⟩

theorem matchedTest_straight :
    Sheet.GroupsNest (Sheet.lines matchedTest) ∧
      (∀ l ∈ (Sheet.lines matchedTest).toList, l.form.Straight) ∧
      ∀ l ∈ (Sheet.lines matchedTest).toList, QuotesApart l.body := by
  decide +kernel

theorem matchedTest_lexes (p : Pass.Place (Recorder Arithmetic.Engine) SamplePlotter) (l : Line)
    (hv : fresh.recorded.Visits matchedTest ["1", "2"] p l) :
    ∀ a ∈ (p.state.step true l p.index).2.page.engine.asked,
      '?' ∈ a.text.toList → Arithmetic.Lexes a.inputs a.text := by
  obtain ⟨⟨n, hp⟩, hl, -⟩ := hv
  have hall : ∀ n < 5, ∀ p ∈ fresh.recorded.place matchedTest ["1", "2"] n,
      ∀ l ∈ (Sheet.lines matchedTest)[p.index]?,
      ∀ a ∈ (p.state.step true l p.index).2.page.engine.asked,
        '?' ∈ a.text.toList → Arithmetic.Lexes a.inputs a.text := by
    decide +kernel
  by_cases hn : n < 5
  · exact hall n hn p hp l hl
  · have hend : fresh.recorded.place matchedTest ["1", "2"] 5 = none := by
      rw [← Option.isNone_iff_eq_none]
      decide +kernel
    rw [place_eq_none_of_le (Nat.le_of_not_lt hn) hend] at hp
    cases hp

/-- The pass comes to the line behind the group, with one placeholder left behind. -/
theorem exists_visit_matchedTest :
    ∃ p, fresh.recorded.Visits matchedTest ["1", "2"] p matchedTestLine ∧ p.index = 3 ∧
      p.left = 1 ∧ ((p.state.step true matchedTestLine 3).2.page.engine.asked =
        p.state.page.engine.asked ++ [⟨"b = ?", ⟨["1", "2"], 0⟩⟩]) := by
  have hplace : ∃ p ∈ fresh.recorded.place matchedTest ["1", "2"] 3,
      (Sheet.lines matchedTest)[p.index]? = some matchedTestLine ∧
        p.state.isCancelled = false ∧ p.index = 3 ∧ p.left = 1 ∧
        ((p.state.step true matchedTestLine 3).2.page.engine.asked =
          p.state.page.engine.asked ++ [⟨"b = ?", ⟨["1", "2"], 0⟩⟩]) := by
    decide +kernel
  obtain ⟨p, hp, hl, hcancelled, hindex, hleft, hasked⟩ := hplace
  exact ⟨p, ⟨⟨3, hp⟩, hl, hcancelled⟩, hindex, hleft, hasked⟩

/-- The placeholder behind the group has number one, but it is given value number zero. -/
theorem placeholder_position_matchedTest :
    ∃ p a, fresh.recorded.Visits matchedTest ["1", "2"] p matchedTestLine ∧
      (p.state.step true matchedTestLine p.index).2.page.engine.asked =
        p.state.page.engine.asked ++ [a] ∧
      (["1", "2"] : List String)[(1 - p.left) % 2]? = some (a.inputs.skip 0).next.1 := by
  obtain ⟨hn, hstraight, hquotes⟩ := matchedTest_straight
  obtain ⟨p, hv, hindex, hleft, hasked⟩ := exists_visit_matchedTest
  obtain ⟨asked, heq, hall⟩ := placeholder_position matchedTest ["1", "2"] fresh hn hstraight
    hquotes (by decide) matchedTest_lexes hv
  rw [hindex] at heq hall
  rw [hasked, List.append_cancel_left_eq] at heq
  subst heq
  obtain ⟨e, he, -, -, hvalue⟩ := hall 0 _ rfl
  have he' : e = "b = ?".toList := by
    have hbody : (expressionsOf matchedTestLine.body)[0]? = some "b = ?".toList := by decide
    rw [hbody] at he
    exact (Option.some.inj he).symm
  have hnumber : Sheet.numberOf (Sheet.lines matchedTest) 3 matchedTestLine 0 + 0 = 1 := by
    decide +kernel
  obtain ⟨-, hvalue, -⟩ := hvalue 0 (by rw [he']; decide)
  rw [hnumber] at hvalue
  refine ⟨p, _, hv, ?_, hvalue⟩
  rw [hindex]
  exact hasked

/-- A sheet without loops, whose groups nest and whose expressions read without error, with
a placeholder that is not given the value of its number. -/
theorem placeholder_left_behind :
    (Sheet.GroupsNest (Sheet.lines matchedTest) ∧
      (∀ l ∈ (Sheet.lines matchedTest).toList, l.form.Straight) ∧
      (∀ l ∈ (Sheet.lines matchedTest).toList, QuotesApart l.body) ∧
      ∀ p l, fresh.recorded.Visits matchedTest ["1", "2"] p l →
        ∀ a ∈ (p.state.step true l p.index).2.page.engine.asked,
          '?' ∈ a.text.toList → Arithmetic.Lexes a.inputs a.text) ∧
    ∃ p a, fresh.recorded.Visits matchedTest ["1", "2"] p matchedTestLine ∧
      (p.state.step true matchedTestLine p.index).2.page.engine.asked =
        p.state.page.engine.asked ++ [a] ∧
      a.text = "b = ?" ∧
      Sheet.numberOf (Sheet.lines matchedTest) p.index matchedTestLine 0 = 1 ∧
      a.inputs.position ≠ 1 % 2 := by
  obtain ⟨hn, hstraight, hquotes⟩ := matchedTest_straight
  obtain ⟨p, hv, hindex, hleft, hasked⟩ := exists_visit_matchedTest
  refine ⟨⟨hn, hstraight, hquotes, matchedTest_lexes⟩, p, ⟨"b = ?", ⟨["1", "2"], 0⟩⟩, hv, ?_,
    rfl, ?_, by decide⟩
  · rw [hindex]
    exact hasked
  · rw [hindex]
    decide +kernel

end Workbench

end Worksheet
