/-
Why a branch is not taken.

A live line with a condition settles its branch by the last expression on it.  If the branch is
left untaken, then that expression was calculated and its value counts as false, or something was
wrong and an error is reported.  There are two exceptions, in which the branch is rejected
without a word: a line that consists of text, with no expression in it, and a group that counts
as matched because a condition of it was passed over in a stopped loop.

* `Conditions.judge_untaken` — a value that does not take the branch;
* `Page.LastValue`, `Page.walk_outcome` — what decides about the value of a line;
* `Workbench.rejected_condition` — why the branch of a live line is left untaken.
-/
import Worksheet.Proofs.Grounds
import Worksheet.Proofs.LiveLines
import Worksheet.Proofs.Written
import Mathlib.Data.List.Induction

namespace Worksheet

/-! ### Values below the threshold -/

namespace Number

open Float.Model

theorem isNaN_unpack_infinity (s : UnpackedFloat.Sign) :
    (UnpackedFloat.unpack .binary64 (UnpackedFloat.packedInfinity .binary64 s)).isNaN = false := by
  cases s with
  | negative => rfl
  | positive => rfl

/-- Only the greatest exponent is that of values that are not numbers. -/
theorem isNaN_unpack {format : Format} {bits : BitVec format.numBits}
    (h : UnpackedFloat.unpackExponent bits ≠ -1#_) :
    (UnpackedFloat.unpack format bits).isNaN = false := by
  unfold UnpackedFloat.unpack
  rw [if_neg h]
  by_cases hexponent : UnpackedFloat.unpackExponent bits = 0#_
  · rw [if_pos hexponent]
    by_cases hmantissa : UnpackedFloat.unpackMantissa bits = 0#_
    · rw [dif_pos hmantissa]
      rfl
    · rw [dif_neg hmantissa]
      rfl
  · rw [if_neg hexponent]
    rfl

/-- A number is still a number when it is stored. -/
theorem isNaN_unpack_pack {f : UnpackedFloat} (h : f.isNaN = false) :
    (UnpackedFloat.unpack .binary64 (f.pack .binary64)).isNaN = false := by
  cases f with
  | infinity s => exact isNaN_unpack_infinity s
  | notANumber => cases h
  | zero s =>
    cases s with
    | negative => rfl
    | positive => rfl
  | finite s m e hm =>
    unfold UnpackedFloat.pack
    dsimp only
    split
    · exact isNaN_unpack_infinity s
    next hexponent =>
    split
    · refine isNaN_unpack ?_
      rw [UnpackedFloat.unpackExponent_packComponents]
      intro heq
      have htoNat := congrArg BitVec.toNat heq
      simp at htoNat hexponent
      omega
    · refine isNaN_unpack ?_
      rw [UnpackedFloat.unpackExponent_packComponents]
      decide

/-- A number that a positive one is not less than is at most that. -/
theorem le_of_not_lt {m : Nat} {e : Int} {hm : 0 < m} {f : UnpackedFloat} (hf : f.isNaN = false)
    (h : (UnpackedFloat.finite .positive m e hm).lt f = false) :
    f.le (.finite .positive m e hm) = true := by
  rcases f with s | _ | s | ⟨s, n, k, hn⟩
  · cases s with
    | negative => rfl
    | positive => cases h
  · cases hf
  · rfl
  · cases s with
    | negative => rfl
    | positive =>
      have hswap : (compare k e).then (compare n m) =
          ((compare e k).then (compare m n)).swap := by
        rw [Ordering.swap_then, Int.compare_swap, Nat.compare_swap]
      show Option.any _ (some ((compare k e).then (compare n m))) = true
      change (some ((compare e k).then (compare m n)) == some .lt) = false at h
      rw [hswap]
      generalize (compare e k).then (compare m n) = order at h ⊢
      cases order with
      | lt => exact absurd h (by decide)
      | eq => rfl
      | gt => rfl

theorem unpack_truthThreshold : Conditions.truthThreshold.toModel.unpack =
    .finite .positive 4951760157141521 (-92) (by decide) := rfl

/-- In absolute value, a finite number that is not above the threshold is at most that. -/
theorem abs_le_truthThreshold {x : Float} (hx : x.isFinite = true)
    (h : ¬Conditions.truthThreshold < x.abs) : x.abs ≤ Conditions.truthThreshold := by
  have hfinite : x.toModel.unpack.isFinite = true := hx
  have hnumber : x.abs.toModel.unpack.isNaN = false := by
    refine isNaN_unpack_pack (f := x.toModel.unpack.abs) ?_
    generalize x.toModel.unpack = f at hfinite ⊢
    cases f with
    | notANumber => cases hfinite
    | _ => rfl
  have hlt : Conditions.truthThreshold.toModel.unpack.lt x.abs.toModel.unpack = false := by
    rw [← Bool.not_eq_true]
    intro hlt
    exact h (decide_eq_true (p := Conditions.truthThreshold.toModel < x.abs.toModel) hlt)
  have hle : x.abs.toModel.unpack.le Conditions.truthThreshold.toModel.unpack = true := by
    rw [unpack_truthThreshold] at hlt ⊢
    exact le_of_not_lt hnumber hlt
  exact decide_eq_true (p := x.abs.toModel ≤ Conditions.truthThreshold.toModel) hle

end Number

namespace Conditions

/-- Whether a value counts as false: it is a finite real number close to zero. -/
structure IsFalse (z : Complex) : Prop where
  real : z.isReal = true
  finite : z.re.isFinite = true
  small : z.re.abs ≤ truthThreshold

/-- A value leaves a branch untaken only if it counts as false, or is reported. -/
theorem judge_untaken {z : Complex} {c : Conditions}
    (h : (c.judge z).2.current.taken = false) :
    IsFalse z ∧ (c.judge z).1 = .ok () ∨ ∃ cause, (c.judge z).1 = .error cause := by
  rw [judge] at h ⊢
  split
  · exact .inr ⟨_, rfl⟩
  next hreal =>
  split
  · exact .inr ⟨_, rfl⟩
  next hfinite =>
  rw [if_neg hreal, if_neg hfinite] at h
  have hfinite' : z.re.isFinite = true := by simpa using hfinite
  refine .inl ⟨⟨by simpa using hreal, hfinite', ?_⟩, rfl⟩
  exact Number.abs_le_truthThreshold hfinite' (of_decide_eq_false h)

end Conditions

/-! ### The value of a line -/

namespace Page

variable {σ ρ : Type} [MathEngine σ]

/-- The last expression among some segments has a value: it was evaluated on the page that the
segments before it leave. -/
inductive LastValue (v : Visit) (p : Page σ ρ) : List Segment → Complex → Prop
  | intro {earlier later : List Segment} {s : Segment} {value : Option Complex} {q r : Page σ ρ}
    {z : Complex} (hs : s.kind = .expression) (hlater : ∀ x ∈ later, x.kind ≠ .expression)
    (hearlier : p.walk v false true earlier none = (.ok value, q))
    (hvalue : q.evaluate s.text = (.ok z, r)) : LastValue v p (earlier ++ s :: later) z

theorem LastValue.append {v : Visit} {p : Page σ ρ} {all : List Segment} {s : Segment}
    {z : Complex} (h : p.LastValue v all z) (hs : s.kind ≠ .expression) :
    p.LastValue v (all ++ [s]) z := by
  cases h with | @intro earlier later x _ _ _ _ hx hlater hearlier hvalue =>
  rw [List.append_assoc, List.cons_append]
  have hall : ∀ y ∈ later ++ [s], y.kind ≠ .expression :=
    List.forall_mem_append.mpr ⟨hlater, List.forall_mem_singleton.mpr hs⟩
  exact .intro hx hall hearlier hvalue

/-- From one page to another, an error at a line is reported. -/
def Reports (number : Nat) (p q : Page σ ρ) : Prop :=
  ∃ written source message, q.output.toList = p.output.toList ++ written ∧
    .lineError source number message ∈ written

theorem walk_append (v : Visit) (shows isCondition : Bool) (xs ys : List Segment)
    (value : Option Complex) (p : Page σ ρ) :
    p.walk v shows isCondition (xs ++ ys) value =
      match p.walk v shows isCondition xs value with
      | (.ok value, q) => q.walk v shows isCondition ys value
      | (.error e, q) => (.error e, q) := by
  induction xs generalizing value p with
  | nil => rfl
  | cons s xs ih =>
    rw [List.cons_append, walk, walk]
    split
    · rcases p.expression v shows isCondition s.text with ⟨(message | payload) | result, q⟩
      · exact ih _ _
      · rfl
      · exact ih _ _
    · exact ih _ _

omit [MathEngine σ] in
theorem Writes.reports {anchor : Option Nat} {p q r : Page σ ρ} {source message : String}
    {number : Nat} (h : Writes anchor p q)
    (hr : r.output.toList = q.output.toList ++ [.lineError source number message]) :
    Reports number p r := by
  obtain ⟨written, hwritten, -⟩ := h
  refine ⟨written ++ [.lineError source number message], source, message, ?_, ?_⟩
  · rw [hr, hwritten, List.append_assoc]
  · exact List.mem_append_right _ (List.mem_singleton_self _)

/-- The last expression of a condition decides about its value: it has one, or it is reported. -/
theorem walk_outcome {v : Visit} (hv : v.calculate = true) {all : List Segment}
    {value : Option Complex} {p q : Page σ ρ}
    (h : p.walk v false true all none = (.ok value, q)) :
    (∃ z, value = some z ∧ p.LastValue v all z) ∨
      (value = none ∧ Reports v.number p q) ∨
      (value = none ∧ (∀ s ∈ all, s.kind ≠ .expression) ∧ q = p) := by
  -- from the end, because the last expression decides
  induction all using List.reverseRecOn generalizing value q with
  | nil =>
    cases h
    exact .inr (.inr ⟨rfl, nofun, rfl⟩)
  | append_singleton all s ih =>
    rw [walk_append] at h
    rcases hall : p.walk v false true all none with ⟨e | before, r⟩
    · rw [hall] at h
      cases h
    rw [hall] at h
    dsimp only at h
    rw [walk] at h
    by_cases hs : s.kind = .expression
    · rw [if_pos hs, expression_unshown hv] at h
      have hquiet := output_evaluate s.text r
      rcases hvalue : r.evaluate s.text with ⟨(message | payload) | z, u⟩
      · rw [hvalue] at h hquiet
        cases h
        have hwritten := output_write [.lineError (quoted v.calculate s.chars) v.number message] u
        rw [show u.output = r.output from hquiet] at hwritten
        have hbefore := writes_walk v false true all none p
        rw [hall] at hbefore
        exact .inr (.inl ⟨rfl, hbefore.reports hwritten⟩)
      · rw [hvalue] at h
        cases h
      · rw [hvalue] at h
        cases h
        exact .inl ⟨z, rfl, .intro hs nofun hall hvalue⟩
    · rw [if_neg hs] at h
      obtain ⟨rfl, rfl⟩ : before = value ∧ r = q := by
        cases h
        exact ⟨rfl, rfl⟩
      rcases ih hall with ⟨z, hz, hlast⟩ | hreports | ⟨hnone, hno, hsame⟩
      · exact .inl ⟨z, hz, hlast.append hs⟩
      · exact .inr (.inl hreports)
      · have hall : ∀ x ∈ all ++ [s], x.kind ≠ .expression :=
          List.forall_mem_append.mpr ⟨hno, List.forall_mem_singleton.mpr hs⟩
        exact .inr (.inr ⟨hnone, hall, hsame⟩)

/-- If a line that is shown leaves the branch untaken that waits for its condition, then its last
expression counts as false or is reported, or it has no expression. -/
theorem showLine_untaken {v : Visit} (hv : v.calculate = true) {word : BranchWord}
    {body : List Char} {c : Conditions} {p : Page σ ρ} (hpending : c.pending = true)
    (htaken : c.current.taken = true)
    (huntaken : (p.showLine v (some word) body c).2.1.current.taken = false) :
    let all := segments (p.mode == .valueOnly) body
    let r := p.showLine v (some word) body c
    (∃ cause, r.1 = .error (.calculation cause)) ∨
      r.1 = .ok () ∧
        ((∃ z, p.LastValue v all z ∧ Conditions.IsFalse z) ∨ Reports v.number p r.2.2 ∨
          ((∀ s ∈ all, s.kind ≠ .expression) ∧ r.2.2 = p)) := by
  dsimp only
  rw [showLine, showSegments_unshown hv] at huntaken ⊢
  generalize segments (p.mode == .valueOnly) body = all at huntaken ⊢
  rcases hwalk : p.walk v false true all none with ⟨e | value, q⟩
  · -- a crash ends the pass before the condition is settled
    rw [hwalk] at huntaken
    rw [htaken] at huntaken
    cases huntaken
  · rw [hwalk] at huntaken
    dsimp only at huntaken ⊢
    rw [hv] at huntaken ⊢
    rcases walk_outcome hv hwalk with ⟨z, rfl, hlast⟩ | ⟨rfl, hreports⟩ | ⟨rfl, hno, hsame⟩
    · rw [settle_some hpending] at huntaken ⊢
      rcases Conditions.judge_untaken huntaken with ⟨hfalse, hok⟩ | ⟨cause, hcause⟩
      · refine .inr ⟨?_, .inl ⟨z, hlast, hfalse⟩⟩
        rw [hok]
        rfl
      · refine .inl ⟨cause, ?_⟩
        rw [hcause]
        rfl
    · rw [settle_none hpending]
      exact .inr ⟨rfl, .inr (.inl hreports)⟩
    · rw [settle_none hpending]
      exact .inr ⟨rfl, .inr (.inr ⟨hno, hsame⟩)⟩

/-- A live line that leaves its branch untaken does so for the same reasons, or because its
condition is empty, which is an error, or because the group has matched. -/
theorem content_untaken {v : Visit} (hv : v.calculate = true) {stopped : Bool} {word : BranchWord}
    {body : List Char} {c : Conditions} {p : Page σ ρ} (hlive : (c.isTaken && !stopped) = true)
    (hpending : c.pending = true) (htaken : c.current.taken = true)
    (huntaken : (p.content v stopped (some word) body c).2.1.current.taken = false) :
    let all := segments (p.mode == .valueOnly) body
    let r := p.content v stopped (some word) body c
    (∃ fault, r.1 = .error fault ∧ fault.isFatal = false) ∨
      r.1 = .ok () ∧
        ((∃ z, p.LastValue v all z ∧ Conditions.IsFalse z) ∨ Reports v.number p r.2.2 ∨
          (body ≠ [] ∧ (∀ s ∈ all, s.kind ≠ .expression) ∧ r.2.2 = p) ∨
          (c.matched = true ∧ r.2.2 = p)) := by
  dsimp only
  have hcontent : p.content v stopped (some word) body c =
      if body.isEmpty then p.bareWord v word c
      else if c.matched then (.ok (), c.reject, p)
      else p.showLine v (some word) body c := by
    rw [content, hv, hlive, hpending, Bool.and_true]
    rfl
  rw [hcontent] at huntaken ⊢
  split
  · rw [bareWord, if_pos hpending]
    exact .inl ⟨_, rfl, rfl⟩
  next hbody =>
  rw [if_neg hbody] at huntaken
  split
  next hmatched => exact .inr ⟨rfl, .inr (.inr (.inr ⟨hmatched, rfl⟩))⟩
  next hmatched =>
  rw [if_neg hmatched] at huntaken
  have hsome : body ≠ [] := fun hnil => hbody (by rw [hnil]; rfl)
  rcases showLine_untaken hv hpending htaken huntaken with
    ⟨cause, hcause⟩ | ⟨hok, hfalse | hreports | hno⟩
  · exact .inl ⟨_, hcause, rfl⟩
  · exact .inr ⟨hok, .inl hfalse⟩
  · exact .inr ⟨hok, .inr (.inl hreports)⟩
  · exact .inr ⟨hok, .inr (.inr (.inl ⟨hsome, hno⟩))⟩

end Page

/-- After a line that needs nothing else, a pass goes on to the next one. -/
theorem Pass.follow_next {σ ρ : Type} {line : Line} {i : Nat}
    {result : Except Fault Flow × Pass σ ρ} (h : result.1 = .ok .next) :
    follow line i result = .go (i + 1) result.2 := by
  obtain ⟨outcome, after⟩ := result
  obtain rfl : outcome = .ok .next := h
  rfl

namespace Workbench

variable {σ ρ : Type} [MathEngine σ] [Plotter ρ σ] {w : Workbench σ ρ} {source : String}
  {inputs : List String} {n : Nat}

namespace Test

variable (t : w.Test source inputs n)

/-- How the line is visited. -/
def visit : Visit :=
  t.place.state.visit true t.line t.place.index

/-- The segments behind the branch word. -/
def parts : List Segment :=
  segments (t.place.state.page.mode == .valueOnly) t.rest

/-- If the visit to the line fails, and that does not end the pass, an error is reported. -/
theorem reports_of_error {fault : Fault} (h : t.visited.1 = .error fault)
    (hgoes : fault.isFatal = false) :
    ∃ s, Pass.follow t.line t.place.index t.visited = .go (t.place.index + 1) s ∧
      Page.Reports (t.place.index + 1) t.place.state.page s.page := by
  have hwrites : Page.Writes t.visit.anchor t.place.state.page t.visited.2.page :=
    Pass.writes_step true t.line t.place.index t.place.state
  rcases hvisited : t.visited with ⟨result, after⟩
  rw [hvisited] at h hwrites
  obtain rfl : result = .error fault := h
  refine ⟨after.write [.lineError t.line.text (t.place.index + 1) fault.message], ?_, ?_⟩
  · rw [Pass.follow, hgoes]
    rfl
  · exact hwrites.reports (Page.output_write _ _)

end Test

/-- **Why a condition is rejected.**  A calculating pass comes to a live line with a condition,
no branch of its group has matched before, and the visit leaves the branch untaken.  Then the
pass goes on to the next line, for one of these reasons.

* The last expression of the line was calculated, and its value counts as false.
* An error at the line is reported.
* Something is written behind the branch word, but there is no expression in it.  Then nothing is
  written on the page.
* A condition of the group was passed over in a stopped loop.  Then the line is not looked at,
  and nothing is written on the page. -/
theorem rejected_condition (t : w.Test source inputs n) (hlive : t.IsLive)
    (hfirst : ∀ m < n, ¬w.Matches source inputs m t.group) (huntaken : t.taken = false) :
    let page := t.place.state.page
    ∃ s, Pass.follow t.line t.place.index t.visited = .go (t.place.index + 1) s ∧
      ((∃ z, page.LastValue t.visit t.parts z ∧ Conditions.IsFalse z) ∨
        Page.Reports (t.place.index + 1) page s.page ∨
        (t.rest ≠ [] ∧ (∀ x ∈ t.parts, x.kind ≠ .expression) ∧ s.page = page) ∨
        ((∃ m < n, w.PassesOver source inputs m t.group) ∧ s.page = page)) := by
  have htaken : t.groups.current.taken = true := by rw [t.current]
  have hcontent : t.content.2.1.current.taken = false := by
    rw [Test.taken, t.visited_eq] at huntaken
    exact huntaken
  have hresult : t.visited.1 = t.content.1.map fun _ => .next := by rw [t.visited_eq]
  have hpage : t.visited.2.page = t.content.2.2 := by rw [t.visited_eq]
  rcases Page.content_untaken rfl (t.live_iff.mp hlive) t.pending htaken hcontent with
    ⟨fault, hfault, hgoes⟩ | ⟨hok, hreason⟩
  · change t.content.1 = _ at hfault
    rw [hfault] at hresult
    obtain ⟨s, hs, hreports⟩ := t.reports_of_error hresult hgoes
    exact ⟨s, hs, .inr (.inl hreports)⟩
  · change t.content.1 = _ at hok
    rw [hok] at hresult
    refine ⟨t.visited.2, Pass.follow_next hresult, ?_⟩
    rw [hpage]
    rcases hreason with hfalse | hreports | hno | ⟨hmatched, hsame⟩
    · exact .inl hfalse
    · exact .inr (.inl hreports)
    · exact .inr (.inr (.inl hno))
    · obtain ⟨m, hm, hmatches | hpasses⟩ := t.ground_of_matched hlive hmatched
      · exact absurd hmatches (hfirst m hm)
      · exact .inr (.inr (.inr ⟨⟨m, hm, hpasses⟩, hsame⟩))

/-- A group that is opened in a stopped loop and reaches beyond it: behind the loop, its next
condition is rejected, though it would hold. -/
example : ∃ p ∈ fresh.station "#repeat 0\n#if 1\n#if 1\n#end if\n#loop\n#else if 1" [] 6,
    p.state.conditions.branches = [⟨false, .tested⟩, ⟨true, .root⟩] := by
  decide +kernel

/-- A sheet with two conditions that do not hold. -/
def refusedTwice : String :=
  "#if 0\n#else if 0\n'a'\n#end if"

/-- The second condition of `refusedTwice` is rejected because of its value. -/
theorem rejected_condition_refusedTwice :
    ∃ t : fresh.Test refusedTwice [] 1, t.IsLive ∧
      (∀ m < 1, ¬fresh.Matches refusedTwice [] m t.group) ∧ t.taken = false ∧
      ∃ z, t.place.state.page.LastValue t.visit t.parts z ∧ Conditions.IsFalse z := by
  let first : fresh.Test refusedTwice [] 0 :=
    .atStart "#if 0".toList " 0".toList (by decide +kernel)
  have hfirst : first.taken = false := by decide +kernel
  let line : Line := ⟨"#else if 0".toList, .branch .alternative " 0".toList⟩
  have hplace : ∃ p ∈ fresh.station refusedTwice [] 1,
      (Sheet.lines refusedTwice)[p.index]? = some line ∧ p.origins = ⟨[0], []⟩ ∧
      p.state.conditions =
        ⟨⟨false, .tested⟩, [⟨true, .root⟩], 1, false, false, some .opening⟩ ∧
      p.state.loops.isStopped = false ∧
      (p.state.step true line p.index).2.conditions.current.taken = false ∧
      (∃ q ∈ (Pass.follow line p.index (p.state.step true line p.index)).place?,
        q.2.page.output.toList = []) ∧
      ∃ s ∈ segments (p.state.page.mode == .valueOnly) " 0".toList, s.kind = .expression := by
    decide +kernel
  obtain ⟨p, hp, hl, horigins, hconditions, hruns, huntaken, ⟨q, hq, hsilent⟩, s, hs, hkind⟩ :=
    hplace
  let second : fresh.Test refusedTwice [] 1 :=
    { place := p
      line := line
      word := .alternative
      rest := " 0".toList
      groups := ⟨⟨true, .tested⟩, [⟨true, .root⟩], 1, false, true, some .alternative⟩
      group := 0
      reached := hp
      found := hl
      form := rfl
      tests := rfl
      entered := by rw [hconditions]; rfl
      belongs := by rw [horigins]; rfl }
  have hlive : second.IsLive := by
    rw [second.live_iff, hruns]
    rfl
  have hbefore : ∀ m < 1, ¬fresh.Matches refusedTwice [] m second.group := by
    rintro m hm ⟨t, -, -, htaken⟩
    obtain rfl : m = 0 := by omega
    rw [t.unique first, hfirst] at htaken
    cases htaken
  refine ⟨second, hlive, hbefore, huntaken, ?_⟩
  obtain ⟨after, hafter, hvalue | hreports | hno | hpasses⟩ :=
    rejected_condition second hlive hbefore huntaken
  · exact hvalue
  · obtain ⟨written, source, message, hwritten, hmem⟩ := hreports
    obtain rfl : q = (p.index + 1, after) := Option.some.inj (hq.symm.trans (hafter ▸ rfl))
    rw [hsilent] at hwritten
    rw [(List.append_eq_nil_iff.mp hwritten.symm).2] at hmem
    cases hmem
  · exact absurd hkind (hno.2.1 s hs)
  · obtain ⟨⟨m, hm, t, -, hstopped⟩, -⟩ := hpasses
    obtain rfl : m = 0 := by omega
    rw [t.unique first] at hstopped
    cases hstopped

/-- A sheet with a text as its condition. -/
def textCondition : String :=
  "#if 'a'\n'b'\n#end if"

/-- The condition of `textCondition` is rejected without a value and without an error. -/
theorem rejected_silently :
    ∃ t : fresh.Test textCondition [] 0, t.IsLive ∧
      (∀ m < 0, ¬fresh.Matches textCondition [] m t.group) ∧ t.taken = false ∧
      (∀ z, ¬t.place.state.page.LastValue t.visit t.parts z) ∧
      ∃ s, Pass.follow t.line t.place.index t.visited = .go 1 s ∧
        ¬Page.Reports 1 t.place.state.page s.page := by
  let t : fresh.Test textCondition [] 0 :=
    .atStart "#if 'a'".toList " 'a'".toList (by decide +kernel)
  have hplace : ∃ q ∈ (Pass.follow t.line t.place.index t.visited).place?,
      q.1 = 1 ∧ q.2.page.output.toList = [] := by
    decide +kernel
  have hparts : ∀ s ∈ t.parts, s.kind ≠ .expression := by decide +kernel
  obtain ⟨⟨i, s⟩, hq, rfl, hsilent⟩ := hplace
  refine ⟨t, t.live_iff.mpr rfl, nofun, by decide +kernel, ?_, s, ?_, ?_⟩
  · intro z hlast
    generalize t.parts = parts at hparts hlast
    obtain ⟨hkind, -⟩ := hlast
    exact hparts _ (List.mem_append_right _ List.mem_cons_self) hkind
  · rcases hfollow : Pass.follow t.line t.place.index t.visited with ⟨outcome, u⟩ | ⟨i, u⟩
    · rw [hfollow] at hq
      cases hq
    · rw [hfollow] at hq
      cases hq
      rfl
  · rintro ⟨written, source, message, hwritten, hmem⟩
    rw [hsilent] at hwritten
    rw [(List.append_eq_nil_iff.mp hwritten.symm).2] at hmem
    cases hmem

end Workbench

end Worksheet
