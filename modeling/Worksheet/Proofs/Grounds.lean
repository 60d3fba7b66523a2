/-
Why a group counts as matched.

Whether a branch has matched is not noted for each group, but once, for the group at the active
level.  When that group is closed, the one around it counts as matched, because its branch was
taken.  A branch that is taken need not have matched, though: in a stopped loop a branch word is
entered without its condition being looked at, and the branch stays taken if the loop ends before
the group does.  So a group counts as matched for one of two reasons, and both are found in the
steps that the pass has made: a condition of the group held, or it was passed over.

* `Conditions.Grounded` — what counts as matched or taken does so for a reason;
* `Workbench.Matches`, `Workbench.PassesOver` — the reasons, by the step they are found at;
* `Workbench.grounded_station` — there is one at every place of a pass;
* `Workbench.ground_of_matched` — why a further condition of a group is not looked at.
-/
import Worksheet.Proofs.DeadLines
import Worksheet.Proofs.Origins

namespace Worksheet

/-! ### Reasons for the state of the groups -/

namespace Conditions

variable {ground ground' : Nat → Prop} {branches outer : List Branch} {groups : List Nat}
  {c d e : Conditions} {g : Nat}

/-- A branch that is taken inside of taken branches, and is not the one for when none matched, is
so for a reason. -/
def TakenGrounds (ground : Nat → Prop) : List Branch → List Nat → Prop
  | b :: outer, g :: groups =>
    (outer.all Branch.taken = true → b.taken = true → b.kind ≠ .otherwise → ground g) ∧
      TakenGrounds ground outer groups
  | _, _ => True

/-- There is a reason for the group at the active level, unless it has come to the branch for
when none matched. -/
def ActiveGround (ground : Nat → Prop) : List Branch → List Nat → Prop
  | b :: outer, g :: groups =>
    if outer.all Branch.taken then b.kind ≠ .otherwise → ground g
    else ActiveGround ground outer groups
  | _, _ => True

/-- What counts as taken, and what counts as matched, does so for a reason. -/
structure Grounded (ground : Nat → Prop) (groups : List Nat) (c : Conditions) : Prop where
  taken : TakenGrounds ground c.branches groups
  matched : c.matched = true → ActiveGround ground c.branches groups

theorem TakenGrounds.mono (himp : ∀ g, ground g → ground' g)
    (h : TakenGrounds ground branches groups) : TakenGrounds ground' branches groups := by
  induction branches generalizing groups with
  | nil => trivial
  | cons b outer ih =>
    rcases groups with _ | ⟨g, groups⟩
    · trivial
    · exact ⟨fun hall hb hkind => himp g (h.1 hall hb hkind), ih h.2⟩

theorem ActiveGround.mono (himp : ∀ g, ground g → ground' g)
    (h : ActiveGround ground branches groups) : ActiveGround ground' branches groups := by
  induction branches generalizing groups with
  | nil => trivial
  | cons b outer ih =>
    rcases groups with _ | ⟨g, groups⟩
    · trivial
    · rw [ActiveGround] at h ⊢
      split
      · next hall =>
        rw [if_pos hall] at h
        exact fun hkind => himp g (h hkind)
      · next hall =>
        rw [if_neg hall] at h
        exact ih h

theorem Grounded.mono (himp : ∀ g, ground g → ground' g) (h : c.Grounded ground groups) :
    c.Grounded ground' groups :=
  ⟨h.taken.mono himp, fun hmatched => (h.matched hmatched).mono himp⟩

/-- Where all branches are taken, the reason for the innermost one is that for the group. -/
theorem TakenGrounds.activeGround (h : TakenGrounds ground branches groups)
    (hall : branches.all Branch.taken = true) : ActiveGround ground branches groups := by
  rcases branches with _ | ⟨b, outer⟩
  · trivial
  rcases groups with _ | ⟨g, groups⟩
  · trivial
  rw [List.all_cons, Bool.and_eq_true] at hall
  rw [ActiveGround, if_pos hall.2]
  exact h.1 hall.2 hall.1

/-- The reason for the group at the active level is there for each of its branches. -/
theorem ActiveGround.change {b b' : Branch} (hkind : b.kind ≠ .otherwise)
    (h : ActiveGround ground (b :: outer) (g :: groups)) :
    ActiveGround ground (b' :: outer) (g :: groups) := by
  rw [ActiveGround] at h ⊢
  split
  · next hall =>
    rw [if_pos hall] at h
    exact fun _ => h hkind
  · next hall =>
    rw [if_neg hall] at h
    exact h

/-! What the operations keep. -/

/-- When a group is closed, the one around it counts as matched because its branch is taken. -/
theorem Grounded.pop (h : c.Grounded ground groups) (hsound : c.Sound) (hne : c.enclosing ≠ []) :
    c.pop.Grounded ground groups.tail := by
  have hbranches : c.branches = c.current :: c.enclosing := rfl
  obtain ⟨htaken, hmatched⟩ := h
  rw [hbranches] at htaken hmatched
  rcases groups with _ | ⟨g, groups⟩
  · constructor
    · rw [branches_pop hne]
      rcases c.enclosing <;> trivial
    · intro _
      rw [branches_pop hne]
      rcases c.enclosing <;> trivial
  · constructor
    · rw [branches_pop hne]
      exact htaken.2
    · rw [branches_pop hne, hsound.matched_pop hne]
      intro hpop
      by_cases hall : c.enclosing.all Branch.taken = true
      · exact htaken.2.activeGround hall
      · rw [Bool.eq_false_iff.mpr hall, Bool.or_false] at hpop
        have hactive := hmatched hpop
        rw [ActiveGround, if_neg hall] at hactive
        exact hactive

theorem Grounded.popTimes {n : Nat} (h : c.Grounded ground groups) (hsound : c.Sound)
    (hn : n ≤ c.depth) : (popTimes n c).Grounded ground (groups.drop n) := by
  induction n generalizing c groups with
  | zero => exact h
  | succ n ih =>
    have hne : c.enclosing ≠ [] := by
      intro hnil
      rw [depth, hnil] at hn
      exact absurd hn (Nat.not_succ_le_zero n)
    have hdepth : n ≤ c.pop.depth := by
      have hlength := congrArg List.length (branches_pop hne)
      rw [length_branches] at hlength
      have hcount : c.enclosing.length = c.depth := rfl
      omega
    rw [← List.drop_tail]
    exact ih (h.pop hsound hne) hsound.pop hdepth

theorem Grounded.closeTo (h : c.Grounded ground groups) (hsound : c.Sound) (level : Nat) :
    (c.closeTo level).Grounded ground (groups.drop (c.depth - level)) := by
  obtain ⟨htaken, hmatched⟩ := h.popTimes hsound (Nat.sub_le c.depth level)
  exact ⟨htaken, hmatched⟩

/-- The reasons are about the branches and whether a branch has matched, and about nothing else. -/
theorem Grounded.congr (h : c.Grounded ground groups) (hbranches : d.branches = c.branches)
    (hmatched : d.matched = c.matched) : d.Grounded ground groups := by
  constructor
  · rw [hbranches]
    exact h.taken
  · rw [hbranches, hmatched]
    exact h.matched

/-- The branch for when none matched needs no reason. -/
theorem Grounded.otherwise {taken : Bool} (h : c.Grounded ground groups)
    (hbranches : d.branches = ⟨taken, .otherwise⟩ :: c.enclosing)
    (hmatched : d.matched = c.matched) : d.Grounded ground groups := by
  obtain ⟨htaken, hactive⟩ := h
  rw [show c.branches = c.current :: c.enclosing from rfl] at htaken hactive
  rcases groups with _ | ⟨g, groups⟩
  · exact ⟨by rw [hbranches]; trivial, fun _ => by rw [hbranches]; trivial⟩
  constructor
  · rw [hbranches]
    exact ⟨fun _ _ hkind => absurd rfl hkind, htaken.2⟩
  · rw [hbranches, hmatched]
    intro hc
    have hbefore := hactive hc
    rw [ActiveGround] at hbefore ⊢
    split
    · exact fun hkind => absurd rfl hkind
    · next hall =>
      rw [if_neg hall] at hbefore
      exact hbefore

/-- A condition that is settled where all branches are taken leaves the reasons as they are. -/
theorem Grounded.settled (h : c.Grounded ground groups) (hall : c.branches.all Branch.taken = true)
    (hsettled : c.Settled d) : d.Grounded ground groups := by
  obtain ⟨taken, hbranches⟩ := hsettled.branches
  have hactive := h.taken.activeGround hall
  have hall' : c.enclosing.all Branch.taken = true :=
    (Bool.and_eq_true_iff.mp (List.all_cons ▸ hall)).2
  rcases groups with _ | ⟨g, groups⟩
  · exact ⟨by rw [hbranches]; trivial, fun _ => by rw [hbranches]; trivial⟩
  have hground : c.current.kind ≠ .otherwise → ground g := by
    change ActiveGround ground (c.current :: c.enclosing) (g :: groups) at hactive
    rwa [ActiveGround, if_pos hall'] at hactive
  constructor
  · rw [hbranches]
    exact ⟨fun _ _ hkind => hground hkind, h.taken.2⟩
  · intro _
    rw [hbranches, ActiveGround, if_pos hall']
    exact hground

/-- No further test comes after the last branch of a group. -/
theorem kind_of_alternative (h : c.enter (some .alternative) = .ok d) :
    c.current.kind ≠ .otherwise := by
  obtain ⟨⟨taken, kind⟩, enclosing, active, matched, pending, label⟩ := c
  rintro rfl
  rcases enclosing with _ | ⟨outer, around⟩
  · cases h
  · cases h

/-- Only an opening needs no group around it. -/
theorem enclosing_ne_nil {word : BranchWord} (h : c.enter (some word) = .ok d)
    (hword : word ≠ .opening) : c.enclosing ≠ [] := by
  obtain ⟨current, enclosing, active, matched, pending, label⟩ := c
  rintro rfl
  cases word with
  | opening => exact hword rfl
  | _ => cases h

/-- A branch with a condition is there for a reason if it was passed over, or if it was settled
as taken. -/
theorem Grounded.tested (hbranches : d.branches = ⟨true, .tested⟩ :: outer)
    (htaken : TakenGrounds ground outer groups)
    (hmatched : d.matched = true → ActiveGround ground d.branches (g :: groups))
    (hchange : (e = d ∧ (outer.all Branch.taken = true → ground g)) ∨
      outer.all Branch.taken = true ∧ d.Settled e ∧ (e.current.taken = true → ground g)) :
    e.Grounded ground (g :: groups) := by
  rcases hchange with ⟨rfl, hground⟩ | ⟨hall, hsettled, hground⟩
  · refine ⟨?_, hmatched⟩
    rw [hbranches]
    exact ⟨fun hall _ _ => hground hall, htaken⟩
  · obtain ⟨hcurrent, rfl⟩ := List.cons.inj hbranches
    have hactive : d.matched = true → ground g := by
      intro hd
      have hactive := hmatched hd
      rw [hbranches, ActiveGround, if_pos hall] at hactive
      exact hactive (by decide)
    have hsame : e.enclosing = d.enclosing ∧ (e.matched = true → ground g) := by
      rcases hsettled with rfl | ⟨taken, rfl⟩
      · exact ⟨rfl, hactive⟩
      · refine ⟨rfl, fun he => ?_⟩
        rcases Bool.or_eq_true_iff.mp he with hd | htaken
        · exact hactive hd
        · exact hground htaken
    have hafter : e.branches = e.current :: d.enclosing := by rw [← hsame.1]; rfl
    constructor
    · rw [hafter]
      exact ⟨fun _ htaken _ => hground htaken, htaken⟩
    · intro he
      rw [hafter, ActiveGround, if_pos hall]
      exact fun _ => hsame.2 he

end Conditions

/-! ### What a line does to the reasons -/

/-- A line that was entered, and does not end the pass, leaves the groups as they are, or settles a
condition where it is live. -/
theorem Pass.settles_of_goes {σ ρ : Type} [MathEngine σ] {v : Visit} (hv : v.calculate = true)
    {word : Option BranchWord} {body : List Char} {c : Conditions} {s : Pass σ ρ}
    {result : Except Fault Flow × Pass σ ρ}
    (hresult : result =
      let r := s.page.content v s.loops.isStopped word body c
      (r.1.map fun _ => .next, { s with conditions := r.2.1, page := r.2.2 }))
    (hgoes : ∀ fault, result.1 = .error fault → fault.isFatal = false) :
    result.2.conditions = c ∧
        (c.pending = true → (c.isTaken && !s.loops.isStopped) = false) ∨
      c.pending = true ∧ (c.isTaken && !s.loops.isStopped) = true ∧
        c.Settled result.2.conditions := by
  subst hresult
  rcases s.page.content_conditions v s.loops.isStopped word body c with
    ⟨fault, hfault, hfatal⟩ | ⟨hsame, hdead⟩ | ⟨hpending, hlive, hsettled⟩
  · rw [hgoes fault (by dsimp only; rw [hfault]; rfl)] at hfatal
    cases hfatal
  · exact .inl ⟨hsame, fun hpending => (hdead hpending).2⟩
  · exact .inr ⟨hpending, hlive hv, hsettled⟩

/-! ### What a pass has done before -/

/-- Whether a condition comes with a branch word. -/
def BranchWord.tests : BranchWord → Bool
  | .opening => true
  | .alternative => true
  | _ => false

namespace Workbench

variable {σ ρ : Type} [MathEngine σ] [Plotter ρ σ]

/-- A line with a condition that a calculating pass comes to after a number of steps. -/
structure Test (w : Workbench σ ρ) (source : String) (inputs : List String) (n : Nat) where
  place : Pass.Station σ ρ
  line : Line
  word : BranchWord
  rest : List Char
  /-- The groups, once the branch word was entered. -/
  groups : Conditions
  /-- The group that the line belongs to, by the step that opened it. -/
  group : Nat
  reached : w.station source inputs n = some place
  found : (Sheet.lines source)[place.index]? = some line
  form : line.form = .branch word rest
  tests : word.tests = true
  entered : place.state.conditions.enter (some word) = .ok groups
  belongs : (if line.form.opensGroup then n :: place.origins.groups
    else place.origins.groups).head? = some group

namespace Test

variable {w : Workbench σ ρ} {source : String} {inputs : List String} {n : Nat}

/-- The test at the first line of a sheet, if that has a condition. -/
def atStart (text rest : List Char)
    (hfound : (Sheet.lines source)[0]? = some ⟨text, .branch .opening rest⟩) :
    w.Test source inputs 0 where
  place := ⟨0, w.startPass true inputs, .initial⟩
  line := ⟨text, .branch .opening rest⟩
  word := .opening
  rest := rest
  groups := ⟨⟨true, .tested⟩, [⟨true, .root⟩], 1, false, true, some .opening⟩
  group := 0
  reached := rfl
  found := hfound
  form := rfl
  tests := rfl
  entered := rfl
  belongs := rfl

/-- A step comes to one line, so there is one test at most. -/
theorem unique (t t' : w.Test source inputs n) : t = t' := by
  obtain ⟨place, line, word, rest, groups, group, hreached, hfound, hform, -, henter, hbelongs⟩ := t
  obtain ⟨place', line', word', rest', groups', group', hreached', hfound', hform', -, henter',
    hbelongs'⟩ := t'
  obtain rfl := Option.some.inj (hreached.symm.trans hreached')
  obtain rfl := Option.some.inj (hfound.symm.trans hfound')
  obtain ⟨rfl, rfl⟩ := LineForm.branch.inj (hform.symm.trans hform')
  obtain rfl := Except.ok.inj (henter.symm.trans henter')
  obtain rfl := Option.some.inj (hbelongs.symm.trans hbelongs')
  rfl

/-- The visit to the line. -/
def visited (t : w.Test source inputs n) : Except Fault Flow × Pass σ ρ :=
  t.place.state.step true t.line t.place.index

/-- Whether the line is shown. -/
def IsLive (t : w.Test source inputs n) : Prop :=
  ¬t.place.state.Dead t.line

/-- Whether the visit leaves the branch taken. -/
def taken (t : w.Test source inputs n) : Bool :=
  t.visited.2.conditions.current.taken

end Test

/-- At a step, a branch of a group matches: its line is live, and it is left taken. -/
def Matches (w : Workbench σ ρ) (source : String) (inputs : List String) (n g : Nat) : Prop :=
  ∃ t : w.Test source inputs n, t.group = g ∧ t.IsLive ∧ t.taken = true

/-- At a step, a condition of a group is passed over: its line stands in a stopped loop. -/
def PassesOver (w : Workbench σ ρ) (source : String) (inputs : List String) (n g : Nat) : Prop :=
  ∃ t : w.Test source inputs n, t.group = g ∧ t.place.state.loops.isStopped = true

/-- Before a step, a branch of a group matched, or a condition of it was passed over. -/
def Ground (w : Workbench σ ρ) (source : String) (inputs : List String) (n g : Nat) : Prop :=
  ∃ m < n, w.Matches source inputs m g ∨ w.PassesOver source inputs m g

theorem Ground.succ {w : Workbench σ ρ} {source : String} {inputs : List String} {n g : Nat}
    (h : w.Ground source inputs n g) : w.Ground source inputs (n + 1) g := by
  obtain ⟨m, hm, h⟩ := h
  exact ⟨m, Nat.lt_succ_of_lt hm, h⟩

section

variable {w : Workbench σ ρ} {source : String} {inputs : List String} {n : Nat}

/-- At every place of a calculating pass the groups are sound. -/
theorem sound_station {p : Pass.Station σ ρ} (hp : w.station source inputs n = some p) :
    p.state.conditions.Sound := by
  induction n generalizing p with
  | zero =>
    cases hp
    exact Conditions.sound_initial
  | succ n ih =>
    obtain ⟨q, hq, hnext⟩ := Option.bind_eq_some_iff.mp hp
    obtain ⟨line, -, ht, -, -⟩ := Pass.Station.next_eq_some hnext
    exact (Pass.Reaches.single ht).sound (ih hq)

namespace Test

variable (t : w.Test source inputs n)

theorem sound : t.groups.Sound :=
  (sound_station t.reached).enter t.entered

/-- What the branch word makes of the groups: it opens one, or changes the branch of one that has
not come to its last. -/
theorem groups_eq :
    (t.line.form.opensGroup = true ∧
      t.groups = { t.place.state.conditions.push with
        pending := true, label := some .opening }) ∨
    (t.line.form.opensGroup = false ∧ t.place.state.conditions.current.kind ≠ .otherwise ∧
      t.groups = { t.place.state.conditions.change true .tested with
        pending := true, label := some .alternative }) := by
  obtain ⟨place, ⟨text, form⟩, word, rest, groups, group, -, -, hform, htests, henter, -⟩ := t
  obtain rfl : form = _ := hform
  have heq := Conditions.eq_of_enter henter
  cases word with
  | opening => exact .inl ⟨rfl, heq⟩
  | alternative => exact .inr ⟨rfl, Conditions.kind_of_alternative henter, heq⟩
  | otherwise => cases htests
  | closing => cases htests

/-- The branch waits for its condition, inside of the branches around the group. -/
theorem pending : t.groups.pending = true := by
  rcases t.groups_eq with ⟨-, h⟩ | ⟨-, -, h⟩
  · rw [h]
  · rw [h]

theorem current : t.groups.current = ⟨true, .tested⟩ := by
  rcases t.groups_eq with ⟨-, h⟩ | ⟨-, -, h⟩
  · rw [h]
    rfl
  · rw [h]
    rfl

/-- An opening starts a group, which has not matched if it is at the active level. -/
theorem opened (hopens : t.line.form.opensGroup = true) :
    t.group = n ∧ t.groups.enclosing = t.place.state.conditions.branches ∧
      t.groups.matched = if t.place.state.conditions.isTaken then false
        else t.place.state.conditions.matched := by
  have hbelongs := t.belongs
  rw [if_pos hopens] at hbelongs
  rcases t.groups_eq with ⟨-, h⟩ | ⟨hstays, -⟩
  · rw [h]
    exact ⟨(Option.some.inj hbelongs).symm, rfl, rfl⟩
  · rw [hopens] at hstays
    cases hstays

/-- A further test changes the branch of the innermost group, which has matched as before. -/
theorem changed (hstays : t.line.form.opensGroup = false) :
    (∃ around, t.place.origins.groups = t.group :: around) ∧
      t.place.state.conditions.current.kind ≠ .otherwise ∧
      t.groups.enclosing = t.place.state.conditions.enclosing ∧
      t.groups.matched = t.place.state.conditions.matched := by
  have hbelongs := t.belongs
  rw [hstays, if_neg Bool.false_ne_true] at hbelongs
  rcases t.groups_eq with ⟨hopens, -⟩ | ⟨-, hkind, h⟩
  · rw [hstays] at hopens
    cases hopens
  · rw [h]
    exact ⟨List.head?_eq_some_iff.mp hbelongs, hkind, rfl, rfl⟩

theorem live_iff :
    t.IsLive ↔ (t.groups.isTaken && !t.place.state.loops.isStopped) = true := by
  have hgroups : t.place.state.groupsAt t.line.form = t.groups := by
    simp only [Pass.groupsAt, t.form, t.entered]
  rw [IsLive, Pass.dead_iff, hgroups, Pass.live_eq t.sound, Bool.not_eq_false]

/-- What the line makes of the groups and of the page, once its branch word was entered. -/
def content : Except Fault Unit × Conditions × Page σ ρ :=
  t.place.state.page.content (t.place.state.visit true t.line t.place.index)
    t.place.state.loops.isStopped (some t.word) t.rest t.groups

theorem visited_eq :
    t.visited = (t.content.1.map fun _ => .next,
      { t.place.state with conditions := t.content.2.1, page := t.content.2.2 }) := by
  obtain ⟨place, ⟨text, form⟩, word, rest, groups, group, -, -, hform, htests, henter, -⟩ := t
  obtain rfl : form = _ := hform
  exact Pass.step_word henter

/-- A visit that does not end the pass settles the condition where the line is live, and leaves
it waiting elsewhere. -/
theorem settles (hgoes : ∀ fault, t.visited.1 = .error fault → fault.isFatal = false) :
    t.visited.2.conditions = t.groups ∧ ¬t.IsLive ∨
      t.IsLive ∧ t.groups.Settled t.visited.2.conditions := by
  rw [t.live_iff, Bool.not_eq_true]
  rcases Pass.settles_of_goes rfl t.visited_eq hgoes with ⟨hsame, hdead⟩ | ⟨-, hsettled⟩
  · exact .inl ⟨hsame, hdead t.pending⟩
  · exact .inr hsettled

/-- The visit keeps the reasons, if it does not end the pass. -/
theorem grounded (hgoes : ∀ fault, t.visited.1 = .error fault → fault.isFatal = false)
    (h : t.place.state.conditions.Grounded (w.Ground source inputs n) t.place.origins.groups) :
    t.visited.2.conditions.Grounded (w.Ground source inputs (n + 1))
      (if t.line.form.opensGroup then n :: t.place.origins.groups
        else t.place.origins.groups) := by
  have hmono : t.place.state.conditions.Grounded (w.Ground source inputs (n + 1))
      t.place.origins.groups := h.mono fun _ => Ground.succ
  have hbranches : t.groups.branches = ⟨true, .tested⟩ :: t.groups.enclosing := by
    rw [← t.current]
    rfl
  have hlive : t.IsLive ↔ t.groups.enclosing.all Branch.taken = true ∧
      t.place.state.loops.isStopped = false := by
    rw [t.live_iff, Conditions.isTaken_eq t.sound, hbranches, List.all_cons, Bool.true_and,
      Bool.and_eq_true, Bool.not_eq_true']
  -- what this step adds to the reasons
  have hchange : (t.visited.2.conditions = t.groups ∧
        (t.groups.enclosing.all Branch.taken = true → w.Ground source inputs (n + 1) t.group)) ∨
      t.groups.enclosing.all Branch.taken = true ∧ t.groups.Settled t.visited.2.conditions ∧
        (t.visited.2.conditions.current.taken = true →
          w.Ground source inputs (n + 1) t.group) := by
    rcases t.settles hgoes with ⟨hsame, hdead⟩ | ⟨hshown, hsettled⟩
    · refine .inl ⟨hsame, fun hall => ⟨n, Nat.lt_succ_self n, .inr ⟨t, rfl, ?_⟩⟩⟩
      rw [hlive, not_and, Bool.not_eq_false] at hdead
      exact hdead hall
    · refine .inr ⟨(hlive.mp hshown).1, hsettled, fun htaken => ?_⟩
      exact ⟨n, Nat.lt_succ_self n, .inl ⟨t, rfl, hshown, htaken⟩⟩
  rcases hopens : t.line.form.opensGroup with _ | _
  · obtain ⟨⟨around, hgroups⟩, hkind, henclosing, hmatched⟩ := t.changed hopens
    rw [if_neg Bool.false_ne_true, hgroups]
    rw [hgroups] at hmono
    refine Conditions.Grounded.tested hbranches ?_ ?_ hchange
    · rw [henclosing]
      exact hmono.taken.2
    · rw [hmatched, hbranches, henclosing]
      intro hbefore
      exact (hmono.matched hbefore).change hkind
  · obtain ⟨hgroup, henclosing, hmatched⟩ := t.opened hopens
    rw [hgroup] at hchange
    rw [if_pos rfl]
    refine Conditions.Grounded.tested hbranches ?_ ?_ hchange
    · rw [henclosing]
      exact hmono.taken
    · rw [hmatched, Conditions.isTaken_eq (sound_station t.reached), hbranches, henclosing]
      intro hbefore
      by_cases hall : t.place.state.conditions.branches.all Branch.taken = true
      · rw [if_pos hall] at hbefore
        cases hbefore
      · rw [if_neg hall] at hbefore
        rw [Conditions.ActiveGround, if_neg hall]
        exact hmono.matched hbefore

end Test

/-! What the lines of a sheet do to the reasons, by their form. -/

variable {q : Pass.Station σ ρ} {line : Line}

/-- There is a reason for the groups that a line leaves open at a place. -/
def GroundedAfter (w : Workbench σ ρ) (source : String) (inputs : List String) (n : Nat)
    (q : Pass.Station σ ρ) (line : Line) (d : Conditions) : Prop :=
  ∀ blocks, d.Grounded (w.Ground source inputs (n + 1))
    (q.origins.after n line.form d.depth blocks).groups

/-- A line that opens no group closes the innermost ones, if any. -/
theorem groups_after_drop (hq : w.station source inputs n = some q)
    (hform : line.form.opensGroup = false) {d : Conditions} {k : Nat}
    (hk : d.branches.length + k = q.state.conditions.branches.length) (blocks : Nat) :
    (q.origins.after n line.form d.depth blocks).groups = q.origins.groups.drop k := by
  rw [Origins.groups_after_close hform, (tracks_station hq).depth]
  rw [Conditions.length_branches, Conditions.length_branches] at hk
  congr 1
  omega

theorem groundedAfter_drop (hq : w.station source inputs n = some q)
    (hform : line.form.opensGroup = false) {d : Conditions} {k : Nat}
    (hk : d.branches.length + k = q.state.conditions.branches.length)
    (h : d.Grounded (w.Ground source inputs n) (q.origins.groups.drop k)) :
    w.GroundedAfter source inputs n q line d := by
  intro blocks
  rw [groups_after_drop hq hform hk]
  exact h.mono fun _ => Ground.succ

/-- A line that changes neither the branches nor whether one has matched. -/
theorem groundedAfter_stay (hq : w.station source inputs n = some q)
    (hform : line.form.opensGroup = false) {d : Conditions}
    (hbranches : d.branches = q.state.conditions.branches)
    (hmatched : d.matched = q.state.conditions.matched)
    (h : q.state.conditions.Grounded (w.Ground source inputs n) q.origins.groups) :
    w.GroundedAfter source inputs n q line d :=
  groundedAfter_drop hq hform (k := 0) (congrArg List.length hbranches)
    (h.congr hbranches hmatched)

/-- Content can settle a condition that waits, but only where all branches are taken. -/
theorem groundedAfter_content (hq : w.station source inputs n = some q)
    (hform : line.form = .content)
    (hgoes : ∀ fault, (q.state.step true line q.index).1 = .error fault → fault.isFatal = false)
    (h : q.state.conditions.Grounded (w.Ground source inputs n) q.origins.groups) :
    w.GroundedAfter source inputs n q line (q.state.step true line q.index).2.conditions := by
  obtain ⟨text, form⟩ := line
  obtain rfl : form = .content := hform
  rcases Pass.settles_of_goes rfl Pass.step_content hgoes with ⟨hsame, -⟩ | ⟨-, hlive, hsettled⟩
  · rw [hsame]
    exact groundedAfter_stay hq rfl rfl rfl h
  · have hlabel : ({ q.state.conditions with label := none } : Conditions).Sound :=
      sound_station hq
    have hall := (Bool.and_eq_true_iff.mp hlive).1
    rw [Conditions.isTaken_eq hlabel] at hall
    obtain ⟨taken, hbranches⟩ := hsettled.branches
    have hgrounded : ({ q.state.conditions with label := none } : Conditions).Grounded
        (w.Ground source inputs n) q.origins.groups := h.congr rfl rfl
    exact groundedAfter_drop hq rfl (k := 0) (by rw [hbranches]; rfl)
      (hgrounded.settled hall hsettled)

/-- `#else` and `#end if` have no condition that could be settled. -/
theorem groundedAfter_bare {word : BranchWord} {rest : List Char} {d : Conditions}
    (hq : w.station source inputs n = some q) (hform : line.form = .branch word rest)
    (htests : word.tests = false) (henter : q.state.conditions.enter (some word) = .ok d)
    (hgoes : ∀ fault, (q.state.step true line q.index).1 = .error fault → fault.isFatal = false)
    (h : q.state.conditions.Grounded (w.Ground source inputs n) q.origins.groups) :
    w.GroundedAfter source inputs n q line (q.state.step true line q.index).2.conditions := by
  obtain ⟨text, form⟩ := line
  obtain rfl : form = .branch word rest := hform
  have heq := Conditions.eq_of_enter henter
  have hpending : d.pending = false := by
    rw [heq]
    cases word with
    | otherwise => rfl
    | closing => rfl
    | _ => cases htests
  have hsame : (q.state.step true ⟨text, .branch word rest⟩ q.index).2.conditions = d := by
    rcases Pass.settles_of_goes rfl (Pass.step_word henter) hgoes with ⟨hsame, -⟩ | ⟨hwaits, -⟩
    · exact hsame
    · rw [hpending] at hwaits
      cases hwaits
  rw [hsame]
  cases word with
  | otherwise =>
    have hbranches : d.branches =
        ⟨!q.state.conditions.matched, .otherwise⟩ :: q.state.conditions.enclosing := by
      rw [heq]
      rfl
    exact groundedAfter_drop hq rfl (k := 0) (by rw [hbranches]; rfl)
      (h.otherwise hbranches (by rw [heq]; rfl))
  | closing =>
    have hne := Conditions.enclosing_ne_nil henter (by decide)
    have hbranches : d.branches = q.state.conditions.pop.branches := by
      rw [heq]
      rfl
    refine groundedAfter_drop hq rfl (k := 1) ?_ ?_
    · rw [hbranches, Conditions.branches_pop hne]
      rfl
    · rw [List.drop_one]
      exact (h.pop (sound_station hq) hne).congr hbranches (by rw [heq]; rfl)
  | _ => cases htests

/-- The groups behind a line with a condition are those before it, and one more if the line
opens one; in any case there is an innermost one, which the line belongs to. -/
theorem exists_group {word : BranchWord} {rest : List Char} {d after : Conditions}
    (hq : w.station source inputs n = some q) (hform : line.form = .branch word rest)
    (htests : word.tests = true) (henter : q.state.conditions.enter (some word) = .ok d)
    (hdepth : after.depth = d.depth) (blocks : Nat) :
    ∃ g around, (q.origins.after n line.form after.depth blocks).groups = g :: around ∧
      (if line.form.opensGroup then n :: q.origins.groups else q.origins.groups) =
        g :: around := by
  cases word with
  | opening =>
    have hopens : line.form.opensGroup = true := by rw [hform]; rfl
    rw [if_pos hopens]
    exact ⟨_, _, Origins.groups_after_open hopens, rfl⟩
  | alternative =>
    have hstays : line.form.opensGroup = false := by rw [hform]; rfl
    have hcount : after.branches.length + 0 = q.state.conditions.branches.length := by
      rw [Nat.add_zero, Conditions.length_branches, hdepth, Conditions.eq_of_enter henter]
      rfl
    rw [hstays, if_neg Bool.false_ne_true, groups_after_drop hq hstays hcount, List.drop_zero]
    have hne : q.origins.groups ≠ [] := by
      intro hnil
      have hlength := (tracks_station hq).depth
      rw [hnil] at hlength
      exact Conditions.enclosing_ne_nil henter (by decide)
        (List.eq_nil_of_length_eq_zero hlength.symm)
    obtain ⟨g, around, hgroups⟩ := List.exists_cons_of_ne_nil hne
    exact ⟨g, around, hgroups, hgroups⟩
  | _ => cases htests

/-- A visit to any line keeps the reasons, if it does not end the pass. -/
theorem groundedAfter_step (hq : w.station source inputs n = some q)
    (hl : (Sheet.lines source)[q.index]? = some line)
    (hgoes : ∀ fault, (q.state.step true line q.index).1 = .error fault → fault.isFatal = false)
    (h : q.state.conditions.Grounded (w.Ground source inputs n) q.origins.groups) :
    w.GroundedAfter source inputs n q line (q.state.step true line q.index).2.conditions := by
  have hchange := Pass.groups_step true line q.index q.state
  generalize hafter : (q.state.step true line q.index).2.conditions = after at hchange ⊢
  cases hchange with
  | stay hform => exact groundedAfter_stay hq hform rfl rfl h
  | content hform _ =>
    rw [← hafter]
    exact groundedAfter_content hq hform hgoes h
  | @branch word rest d _ hform henter hsettled =>
    rcases htests : word.tests with _ | _
    · rw [← hafter]
      exact groundedAfter_bare hq hform htests henter hgoes h
    · intro blocks
      have hdepth : after.depth = d.depth := by
        rcases hsettled with rfl | hsettled
        · rfl
        · exact hsettled.depth
      obtain ⟨g, around, hgroups, hsame⟩ := exists_group hq hform htests henter hdepth blocks
      let t : w.Test source inputs n :=
        ⟨q, line, word, rest, d, g, hq, hl, hform, htests, henter, by rw [hsame]; rfl⟩
      have hgrounded := t.grounded hgoes h
      rw [hgroups, ← hsame, ← hafter]
      exact hgrounded
  | unwind level hform =>
    have hle : q.state.conditions.depth - level ≤ q.state.conditions.depth := Nat.sub_le _ _
    refine groundedAfter_drop hq (by rw [hform]; rfl) ?_ (h.closeTo (sound_station hq) level)
    show (Conditions.popTimes _ q.state.conditions).branches.length + _ = _
    rw [Conditions.branches_popTimes hle, List.length_drop, Conditions.length_branches]
    omega

/-- At every place of a pass, what counts as taken and what counts as matched does so for a
reason that is found before. -/
theorem grounded_station {p : Pass.Station σ ρ} (hp : w.station source inputs n = some p) :
    p.state.conditions.Grounded (w.Ground source inputs n) p.origins.groups := by
  induction n generalizing p with
  | zero =>
    cases hp
    exact ⟨trivial, fun h => by cases h⟩
  | succ n ih =>
    obtain ⟨q, hq, hnext⟩ := Option.bind_eq_some_iff.mp hp
    obtain ⟨line, hl, -, hgo, horigins⟩ := Pass.Station.next_eq_some hnext
    obtain ⟨-, -, hconditions⟩ := Pass.follow_go hgo
    rw [horigins, hconditions]
    exact groundedAfter_step hq hl (Pass.follow_go_inputs hgo).2 (ih hq) _

/-- **Why a further condition is not looked at.**  If the group of a live line with a condition
counts as matched, then a branch of it matched before, or a condition of it was passed over in a
stopped loop. -/
theorem Test.ground_of_matched (t : w.Test source inputs n) (hlive : t.IsLive)
    (hmatched : t.groups.matched = true) : w.Ground source inputs n t.group := by
  have hall : t.groups.enclosing.all Branch.taken = true := by
    have htaken := (Bool.and_eq_true_iff.mp (t.live_iff.mp hlive)).1
    rw [Conditions.isTaken_eq t.sound] at htaken
    exact (Bool.and_eq_true_iff.mp (List.all_cons ▸ htaken)).2
  rcases hopens : t.line.form.opensGroup with _ | _
  · obtain ⟨⟨around, hgroups⟩, hkind, henclosing, hsame⟩ := t.changed hopens
    have hgrounded := grounded_station t.reached
    rw [hgroups] at hgrounded
    rw [hsame] at hmatched
    rw [henclosing] at hall
    have hactive : Conditions.ActiveGround _ (_ :: t.place.state.conditions.enclosing) _ :=
      hgrounded.matched hmatched
    rw [Conditions.ActiveGround, if_pos hall] at hactive
    exact hactive hkind
  · obtain ⟨-, henclosing, hnew⟩ := t.opened hopens
    rw [henclosing] at hall
    rw [hnew, Conditions.isTaken_eq (sound_station t.reached), if_pos hall] at hmatched
    cases hmatched

end

end Workbench

end Worksheet
