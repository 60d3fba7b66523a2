/-
The tags of containers in a text of markup.

A container is opened by one tag and closed by another.  A tag is found by its characters, so
what stands before it matters only if that breaks off inside a tag.  Texts that do not
(`Closed`) can be put one after the other: the tags in the whole are those in the parts.  Putting
the length units in place of their mark neither makes a tag of a container nor breaks one, also
where the mark is made up of the end of one part and the beginning of the next.

* `Tags.count` — how often a tag occurs in a text;
* `Tags.Plain` — texts without tags of containers;
* `Tags.Nests` — texts that lead from one depth of nesting to another;
* `Tags.Filled` — a text, cut off somewhere, with something in place of the mark of the units;
* `Tags.balanced_fillUnits` — balance survives putting in the units.
-/
import Worksheet.Markup
import Mathlib.Data.List.Basic

namespace Worksheet.Tags

open scoped List

/-- How often a tag occurs in a text.  A tag does not overlap with itself, so these are all the
places where it stands. -/
def count (tag : List Char) : List Char → Nat
  | [] => 0
  | c :: cs => (if tag <+: c :: cs then 1 else 0) + count tag cs

/-- The tag that opens a container. -/
def opening : List Char :=
  "<div class=\"indent\">".toList

/-- The tag that closes a container. -/
def closing : List Char :=
  "</div>".toList

/-- Characters that make up a tag, in which the brackets stand at the ends only and the mark of
the units does not begin. -/
def IsTag (tag : List Char) : Prop :=
  ∃ inner, tag = '<' :: (inner ++ ['>']) ∧ '<' ∉ inner ∧ '>' ∉ inner ∧ '%' ∉ inner

theorem isTag_opening : IsTag opening :=
  ⟨"div class=\"indent\"".toList, by decide⟩

theorem isTag_closing : IsTag closing :=
  ⟨"/div".toList, by decide⟩

/-! ### Texts that do not break off inside a tag -/

/-- Every bracket that opens a tag is followed by one that closes a tag. -/
def Closed : List Char → Prop
  | [] => True
  | c :: cs => (c = '<' → '>' ∈ cs) ∧ Closed cs

instance : DecidablePred Closed
  | [] => inferInstanceAs (Decidable True)
  | c :: cs =>
    have := instDecidablePredListCharClosed cs
    inferInstanceAs (Decidable ((c = '<' → '>' ∈ cs) ∧ Closed cs))

variable {tag a b cs q : List Char}

theorem closed_of_not_mem (h : '<' ∉ cs) : Closed cs := by
  induction cs with
  | nil => trivial
  | cons c cs ih =>
    rw [List.mem_cons, not_or] at h
    refine ⟨?_, ih h.2⟩
    intro hc
    exact absurd hc.symm h.1

theorem Closed.append (ha : Closed a) (hb : Closed b) : Closed (a ++ b) := by
  induction a with
  | nil => exact hb
  | cons c a ih =>
    refine ⟨?_, ih ha.2⟩
    intro hc
    exact List.mem_append_left b (ha.1 hc)

/-! ### Counting tags -/

/-- A tag begins with a bracket. -/
theorem IsTag.not_starts (h : IsTag tag) {c : Char} (hc : c ≠ '<') (cs : List Char) :
    ¬tag <+: c :: cs := by
  obtain ⟨inner, rfl, -⟩ := h
  rw [List.cons_prefix_cons]
  intro hprefix
  exact hc hprefix.1.symm

theorem count_cons_of_ne (h : IsTag tag) {c : Char} (hc : c ≠ '<') (cs : List Char) :
    count tag (c :: cs) = count tag cs := by
  rw [count, if_neg (h.not_starts hc cs), Nat.zero_add]

theorem count_of_not_mem (h : IsTag tag) (hcs : '<' ∉ cs) : count tag cs = 0 := by
  induction cs with
  | nil => rfl
  | cons c cs ih =>
    rw [List.mem_cons, not_or] at hcs
    rw [count_cons_of_ne h (fun hc => hcs.1 hc.symm), ih hcs.2]

/-- A tag that begins in a closed text ends there. -/
theorem IsTag.prefix_append_iff (h : IsTag tag) {c : Char} (ha : Closed (c :: a))
    (b : List Char) : tag <+: c :: (a ++ b) ↔ tag <+: c :: a := by
  obtain ⟨inner, rfl, -, hclose, -⟩ := h
  rw [List.cons_prefix_cons, List.cons_prefix_cons]
  refine and_congr_right ?_
  rintro rfl
  constructor
  · intro hprefix
    by_cases hle : (inner ++ ['>']).length ≤ a.length
    · exact List.prefix_of_prefix_length_le hprefix (List.prefix_append a b) hle
    · -- the text would break off inside the tag, before the bracket that closes it
      have hlength : a.length ≤ inner.length := by
        rw [List.length_append, List.length_singleton] at hle
        omega
      have hinside : a <+: inner ++ ['>'] :=
        List.prefix_of_prefix_length_le (List.prefix_append a b) hprefix (by simp; omega)
      have ha' : a <+: inner :=
        List.prefix_of_prefix_length_le hinside (List.prefix_append _ _) hlength
      exact absurd (ha'.subset (ha.1 rfl)) hclose
  · intro hprefix
    exact hprefix.trans (List.prefix_append a b)

/-- The tags in a closed text and one after it are those in the two. -/
theorem count_append (h : IsTag tag) (ha : Closed a) (b : List Char) :
    count tag (a ++ b) = count tag a + count tag b := by
  induction a with
  | nil => rw [count, Nat.zero_add, List.nil_append]
  | cons c a ih =>
    rw [List.cons_append, count, count, ih ha.2]
    simp only [h.prefix_append_iff ha b]
    omega

/-- A part that a text begins with has no more tags than the text. -/
theorem count_le (hq : q <+: cs) (tag : List Char) : count tag q ≤ count tag cs := by
  induction cs generalizing q with
  | nil =>
    obtain rfl := List.prefix_nil.mp hq
    exact Nat.le_refl _
  | cons c cs ih =>
    rcases List.prefix_cons_iff.mp hq with rfl | ⟨q, rfl, hq'⟩
    · exact Nat.zero_le _
    · have hrest := ih hq'
      rw [count, count]
      by_cases htag : tag <+: c :: q
      · rw [if_pos htag, if_pos (htag.trans hq)]
        omega
      · rw [if_neg htag]
        omega

/-- Where a text begins with a part of two texts, it ends in the first or in the second. -/
theorem prefix_append_cases (hq : q <+: a ++ b) :
    q <+: a ∨ ∃ rest, q = a ++ rest ∧ rest <+: b := by
  rcases List.prefix_or_prefix_of_prefix hq (List.prefix_append a b) with hqa | ⟨rest, rfl⟩
  · exact .inl hqa
  · exact .inr ⟨rest, rfl, (List.prefix_append_right_inj a).mp hq⟩

/-! ### Plain texts -/

/-- A closed text without tags of containers. -/
structure Plain (cs : List Char) : Prop where
  closed : Closed cs
  opening : count opening cs = 0
  closing : count closing cs = 0

instance : DecidablePred Plain := fun cs =>
  decidable_of_iff (Closed cs ∧ count Tags.opening cs = 0 ∧ count Tags.closing cs = 0)
    ⟨fun h => ⟨h.1, h.2.1, h.2.2⟩, fun h => ⟨h.closed, h.opening, h.closing⟩⟩

theorem plain_of_not_mem (h : '<' ∉ cs) : Plain cs :=
  ⟨closed_of_not_mem h, count_of_not_mem isTag_opening h, count_of_not_mem isTag_closing h⟩

theorem Plain.append (ha : Plain a) (hb : Plain b) : Plain (a ++ b) := by
  constructor
  · exact ha.closed.append hb.closed
  · rw [count_append isTag_opening ha.closed, ha.opening, hb.opening]
  · rw [count_append isTag_closing ha.closed, ha.closing, hb.closing]

/-- A text made of plain texts is plain. -/
theorem plain_flatMap {α : Type} {f : α → List Char} {xs : List α} (h : ∀ x ∈ xs, Plain (f x)) :
    Plain (xs.flatMap f) := by
  induction xs with
  | nil => exact plain_of_not_mem List.not_mem_nil
  | cons x xs ih =>
    rw [List.flatMap_cons]
    exact (h x List.mem_cons_self).append (ih fun y hy => h y (List.mem_cons_of_mem x hy))

theorem plain_append {s t : String} (hs : Plain s.toList) (ht : Plain t.toList) :
    Plain (s ++ t).toList := by
  rw [String.toList_append]
  exact hs.append ht

/-- A tag whose name begins with another letter than that of a container is plain. -/
theorem plain_tag {c : Char} {inner : List Char} (hc : c ≠ 'd' ∧ c ≠ '/')
    (hinner : '<' ∉ c :: inner) : Plain ('<' :: c :: inner ++ ['>']) := by
  have hbody : '<' ∉ c :: (inner ++ ['>']) := by
    rw [← List.cons_append, List.mem_append, not_or]
    exact ⟨hinner, by decide⟩
  have hcount : ∀ tag d rest, tag = '<' :: d :: rest → c ≠ d → IsTag tag →
      count tag ('<' :: c :: (inner ++ ['>'])) = 0 := by
    intro tag d rest htag hd his
    have hnot : ¬tag <+: '<' :: c :: (inner ++ ['>']) := by
      rw [htag, List.cons_prefix_cons, List.cons_prefix_cons]
      intro hprefix
      exact hd hprefix.2.1.symm
    rw [count, if_neg hnot, count_of_not_mem his hbody]
  constructor
  · refine ⟨?_, closed_of_not_mem hbody⟩
    simp
  · exact hcount Tags.opening 'd' _ rfl hc.1 isTag_opening
  · exact hcount Tags.closing '/' _ rfl hc.2 isTag_closing

/-! ### Texts that nest -/

/-- A text leads from one depth of nesting to another, without closing more containers on the
way than are open. -/
structure Nests (before : Nat) (cs : List Char) (after : Nat) : Prop where
  closed : Closed cs
  total : before + count opening cs = after + count closing cs
  inside : ∀ q, q <+: cs → count closing q ≤ before + count opening q

variable {k m n : Nat}

theorem Plain.nests (h : Plain cs) (n : Nat) : Nests n cs n := by
  constructor
  · exact h.closed
  · rw [h.opening, h.closing]
  · intro q hq
    have hle := count_le hq Tags.closing
    rw [h.closing] at hle
    omega

theorem Nests.append (ha : Nests k a m) (hb : Nests m b n) : Nests k (a ++ b) n := by
  have htotal := ha.total
  constructor
  · exact ha.closed.append hb.closed
  · have htotal' := hb.total
    rw [count_append isTag_opening ha.closed, count_append isTag_closing ha.closed]
    omega
  · intro q hq
    rcases prefix_append_cases hq with hqa | ⟨rest, rfl, hrest⟩
    · exact ha.inside q hqa
    · have hinside := hb.inside rest hrest
      rw [count_append isTag_opening ha.closed, count_append isTag_closing ha.closed]
      omega

theorem nests_opening (n : Nat) : Nests n opening (n + 1) := by
  have hnone : count closing opening = 0 := by decide
  have hone : count opening opening = 1 := by decide
  constructor
  · decide
  · rw [hone, hnone]
  · intro q hq
    have hle := count_le hq closing
    omega

theorem nests_closing (n : Nat) : Nests (n + 1) closing n := by
  have hone : count closing closing = 1 := by decide
  have hnone : count opening closing = 0 := by decide
  constructor
  · decide
  · rw [hone, hnone]
  · intro q hq
    have hle := count_le hq closing
    omega

/-- A text closes as many containers as it opens, and never more than are open. -/
def Balanced (cs : List Char) : Prop :=
  count opening cs = count closing cs ∧ ∀ q, q <+: cs → count closing q ≤ count opening q

/-! ### Putting in the length units -/

/-- A text, perhaps cut off, with a part in place of the mark of the units, which is cut off as
well if it comes last. -/
inductive Filled (part : List Char) : List Char → List Char → Prop
  | cut {rest : List Char} (h : rest <+: part) : Filled part [] rest
  | keep (c : Char) {a b : List Char} (h : Filled part a b) : Filled part (c :: a) (c :: b)
  | put {a b : List Char} (h : Filled part a b) :
    Filled part ('%' :: 'u' :: a) (part ++ b)

variable {part : List Char}

theorem filled_replace (part cs : List Char) :
    Filled part cs (Text.replace Markup.unitsMark part cs) := by
  have hfrom : ∀ skip, Filled part (cs.drop skip)
      (Text.replaceFrom Markup.unitsMark part skip cs) := by
    intro skip
    fun_induction Text.replaceFrom Markup.unitsMark part skip cs with
    | case1 skip =>
      rw [List.drop_nil]
      exact .cut List.nil_prefix
    | case2 skip c cs ih => exact ih
    | case3 c cs hmark ih =>
      obtain ⟨rest, hrest⟩ := Option.isSome_iff_exists.mp hmark
      rw [Text.stripPrefix?_eq_some_iff] at hrest
      obtain ⟨rfl, rfl⟩ := List.cons.inj hrest
      exact .put ih
    | case4 c cs hmark ih => exact .keep c ih
  exact hfrom 0

/-- Cutting off what is filled in cuts off the text. -/
theorem Filled.of_cut (h : Filled part a b) (hq : q <+: b) :
    ∃ p, p <+: a ∧ Filled part p q := by
  induction h generalizing q with
  | cut hrest => exact ⟨[], List.nil_prefix, .cut (hq.trans hrest)⟩
  | keep c h ih =>
    rcases List.prefix_cons_iff.mp hq with rfl | ⟨q, rfl, hq'⟩
    · exact ⟨[], List.nil_prefix, .cut List.nil_prefix⟩
    · obtain ⟨p, hp, hfilled⟩ := ih hq'
      exact ⟨c :: p, List.cons_prefix_cons.mpr ⟨rfl, hp⟩, .keep c hfilled⟩
  | put h ih =>
    rcases prefix_append_cases hq with hq | ⟨rest, rfl, hrest⟩
    · exact ⟨[], List.nil_prefix, .cut hq⟩
    · obtain ⟨p, hp, hfilled⟩ := ih hrest
      refine ⟨'%' :: 'u' :: p, ?_, .put hfilled⟩
      rw [List.cons_prefix_cons, List.cons_prefix_cons]
      exact ⟨rfl, rfl, hp⟩

/-- The part begins with a bracket. -/
theorem not_starts_of_head {w rest : List Char} {c : Char} (hc : c ≠ '<') (h : rest <+: '<' :: w)
    (cs : List Char) : ¬c :: cs <+: rest := by
  intro hprefix
  have hwhole := hprefix.trans h
  rw [List.cons_prefix_cons] at hwhole
  exact hc hwhole.1

/-- Where neither the mark nor the part begins, filling in changes nothing. -/
theorem Filled.prefix_iff (h : Filled ('<' :: part) a b) {w : List Char} (hbracket : '<' ∉ w)
    (hmark : '%' ∉ w) : w <+: a ↔ w <+: b := by
  induction h generalizing w with
  | @cut rest hrest =>
    cases w with
    | nil => simp
    | cons x w =>
      rw [List.mem_cons, not_or] at hbracket
      have hx : x ≠ '<' := fun heq => hbracket.1 heq.symm
      exact iff_of_false (by simp) (not_starts_of_head hx hrest w)
  | keep c h ih =>
    cases w with
    | nil => simp
    | cons x w =>
      rw [List.mem_cons, not_or] at hbracket hmark
      rw [List.cons_prefix_cons, List.cons_prefix_cons, ih hbracket.2 hmark.2]
  | put h ih =>
    cases w with
    | nil => simp
    | cons x w =>
      rw [List.mem_cons, not_or] at hbracket hmark
      rw [List.cons_append, List.cons_prefix_cons, List.cons_prefix_cons]
      exact iff_of_false (fun h => hmark.1 h.1.symm) (fun h => hbracket.1 h.1.symm)

/-- Filling in a part without tags neither makes a tag nor breaks one. -/
theorem Filled.count_eq (h : Filled ('<' :: part) a b) (htag : IsTag tag)
    (hclosed : Closed ('<' :: part)) (hpart : count tag ('<' :: part) = 0) :
    count tag b = count tag a := by
  induction h with
  | cut hrest =>
    have hle := count_le hrest tag
    rw [hpart] at hle
    rw [count]
    omega
  | @keep c a b h ih =>
    have hiff : tag <+: c :: a ↔ tag <+: c :: b := by
      obtain ⟨inner, rfl, hopen, -, hmark⟩ := htag
      have hwhole := h.prefix_iff (w := inner ++ ['>'])
        (by simpa using hopen) (by simpa using hmark)
      rw [List.cons_prefix_cons, List.cons_prefix_cons, hwhole]
    rw [count, count, ih]
    simp only [hiff]
  | put h ih =>
    rw [count_append htag hclosed, hpart, ih, count_cons_of_ne htag (by decide),
      count_cons_of_ne htag (by decide), Nat.zero_add]

/-- What stands in place of the mark of the units in a preview is plain. -/
theorem plain_units {units : String} (h : '<' ∉ units.toList) :
    Plain ("<span class=\"Units\">" ++ units ++ "</span>").toList := by
  have hbefore : Plain "<span class=\"Units\">".toList := by decide +kernel
  have hafter : Plain "</span>".toList := by decide
  exact plain_append (plain_append hbefore (plain_of_not_mem h)) hafter

/-- **A preview that nests to the end is balanced with the length units in it.** -/
theorem balanced_fillUnits {html units : String} (h : Nests 0 html.toList 0)
    (hunits : '<' ∉ units.toList) : Balanced (Markup.fillUnits html units false).toList := by
  have htotal := h.total
  have hinside := h.inside
  rw [Markup.fillUnits]
  dsimp only
  split
  · exact ⟨by omega, fun q hq => by have := hinside q hq; omega⟩
  rw [if_neg Bool.false_ne_true, String.toList_append, String.toList_ofList]
  have hcontrol : Plain Markup.unitsControl.toList := by decide +kernel
  generalize Markup.unitsControl.toList = control at hcontrol ⊢
  have hspan := plain_units hunits
  obtain ⟨part, hpart⟩ : ∃ part,
      ("<span class=\"Units\">" ++ units ++ "</span>").toList = '<' :: part := by
    rw [String.toList_append, String.toList_append]
    exact ⟨"span class=\"Units\">".toList ++ units.toList ++ "</span>".toList, rfl⟩
  have hfilled := filled_replace ("<span class=\"Units\">" ++ units ++ "</span>").toList html.toList
  generalize Text.replace Markup.unitsMark _ html.toList = filled at hfilled ⊢
  rw [hpart] at hspan hfilled
  have hcount : ∀ {p q}, Filled ('<' :: part) p q →
      count opening q = count opening p ∧ count closing q = count closing p := by
    intro p q hpq
    exact ⟨hpq.count_eq isTag_opening hspan.closed hspan.opening,
      hpq.count_eq isTag_closing hspan.closed hspan.closing⟩
  constructor
  · rw [count_append isTag_opening hcontrol.closed, count_append isTag_closing hcontrol.closed,
      hcontrol.opening, hcontrol.closing, (hcount hfilled).1, (hcount hfilled).2]
    omega
  · intro q hq
    rcases prefix_append_cases hq with hq | ⟨rest, rfl, hrest⟩
    · have hle := count_le hq closing
      rw [hcontrol.closing] at hle
      omega
    · obtain ⟨p, hp, hcut⟩ := hfilled.of_cut hrest
      have hle := hinside p hp
      rw [count_append isTag_opening hcontrol.closed, count_append isTag_closing hcontrol.closed,
        hcontrol.opening, hcontrol.closing, (hcount hcut).1, (hcount hcut).2]
      omega

end Worksheet.Tags
