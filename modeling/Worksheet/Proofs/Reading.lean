/-
What reading an expression does to the input queue.

The engine for real arithmetic reads an expression from left to right and takes a value from
the queue for each placeholder.  So a text that reads without error takes as many values as
it has placeholders, the first one from where the queue stands (`lexemes_ok`), and what is
displayed is the text with these values in their places (`filled`).

* `scan_ok` — the first lexeme of a text;
* `lexemes_ok` — a text that reads without error;
* `queue_parse` — what the engine leaves of the queue.
-/
import Worksheet.Arithmetic.Engine
import Mathlib.Data.List.TakeWhile

namespace Worksheet

/-- What is left of a text without the blanks around it comes from the text. -/
theorem Text.mem_of_mem_trim {c : Char} {cs : List Char} (h : c ∈ Text.trim cs) : c ∈ cs := by
  rw [Text.trim, Text.trimRight, Text.trimLeft, List.mem_reverse] at h
  have hleft := List.mem_reverse.mp ((List.dropWhile_suffix _).subset h)
  exact (List.dropWhile_suffix _).subset hleft

namespace Arithmetic

/-- A text with the next values of a queue in place of its placeholders. -/
def filled : InputQueue → List Char → List Char
  | _, [] => []
  | q, c :: cs =>
    if c = '?' then Text.trim q.next.1.toList ++ filled q.next.2 cs else c :: filled q cs

theorem filled_of_not_mem {cs : List Char} (h : '?' ∉ cs) (q : InputQueue) :
    filled q cs = cs := by
  induction cs with
  | nil => rfl
  | cons c cs ih =>
    rw [List.mem_cons, not_or] at h
    rw [filled, if_neg fun hc => h.1 hc.symm, ih h.2]

/-- The values that the second of two texts takes are those behind the first. -/
theorem filled_append (q : InputQueue) (xs ys : List Char) :
    filled q (xs ++ ys) = filled q xs ++ filled (q.skip (xs.count '?')) ys := by
  induction xs generalizing q with
  | nil => rfl
  | cons c cs ih =>
    by_cases hc : c = '?'
    · subst hc
      rw [List.cons_append, filled, if_pos rfl, ih, filled, if_pos rfl, List.count_cons_self,
        InputQueue.skip, List.append_assoc]
    · rw [List.cons_append, filled, if_neg hc, ih, filled, if_neg hc,
        List.count_cons_of_ne hc]
      rfl

/-! ### One lexeme -/

theorem not_mem_takeWhile {p : Char → Bool} (hp : p '?' = false) (cs : List Char) :
    '?' ∉ cs.takeWhile p := by
  intro hmem
  have htrue := List.mem_takeWhile_imp hmem
  rw [hp] at htrue
  cases htrue

theorem not_mem_symbol (op : Operator) : '?' ∉ op.symbol := by
  cases op <;> decide

/-- A lexeme is a part of its text, displayed with the next values, which it takes. -/
theorem scan_ok {q after : InputQueue} {c : Char} {cs rest : List Char} {lexeme : Lexeme}
    (h : scan q c cs = (.ok (lexeme, rest), after)) :
    ∃ part, c :: cs = part ++ rest ∧ after = q.skip (part.count '?') ∧
      lexeme.shown = filled q part := by
  -- every lexeme but a placeholder is displayed as it stands, and takes no value
  have hplain : ∀ part : List Char, '?' ∉ part → c :: cs = part ++ rest → lexeme.shown = part →
      after = q →
      ∃ part, c :: cs = part ++ rest ∧ after = q.skip (part.count '?') ∧
        lexeme.shown = filled q part := by
    rintro part hpart hsplit hshown rfl
    refine ⟨part, hsplit, ?_, ?_⟩
    · rw [List.count_eq_zero.mpr hpart]
      rfl
    · rw [hshown, filled_of_not_mem hpart]
  rw [scan] at h
  split at h
  · next hblank =>
    cases h
    refine hplain [c] ?_ rfl rfl rfl
    intro hmem
    obtain rfl := List.mem_singleton.mp hmem
    exact absurd hblank (by decide)
  split at h
  · next hmark =>
    dsimp only at h
    split at h
    · cases h
      subst hmark
      refine ⟨['?'], rfl, rfl, ?_⟩
      show Text.trim q.next.1.toList = Text.trim q.next.1.toList ++ []
      rw [List.append_nil]
    · cases h
  next hmark =>
  -- names and numbers go on as long as a class of characters does that placeholders are not in
  have hhead : ∀ p : Char → Bool, p '?' = false → '?' ∉ c :: cs.takeWhile p := by
    intro p hp hmem
    rcases List.mem_cons.mp hmem with heq | hmem
    · exact hmark heq.symm
    · exact not_mem_takeWhile hp cs hmem
  have hsplit : ∀ p : Char → Bool, c :: cs = (c :: cs.takeWhile p) ++ cs.dropWhile p := by
    intro p
    rw [List.cons_append, List.takeWhile_append_dropWhile]
  have hone : '?' ∉ [c] := fun hmem => hmark (List.mem_singleton.mp hmem).symm
  split at h
  · dsimp only at h
    split at h
    · cases h
      exact hplain _ (hhead inNumber (by decide)) (hsplit _) rfl rfl
    · cases h
  split at h
  · cases h
    exact hplain _ (hhead Text.continuesName (by decide)) (hsplit _) rfl rfl
  split at h
  · cases h
    exact hplain [c] hone rfl rfl rfl
  split at h
  · cases h
    exact hplain [c] hone rfl rfl rfl
  split at h
  · next op r hop =>
    cases h
    exact hplain _ (not_mem_symbol op) (Operator.read?_append hop) rfl rfl
  · cases h

/-- Reading a lexeme that is no placeholder leaves the queue as it is. -/
theorem scan_of_ne {c : Char} (hc : c ≠ '?') (q : InputQueue) (cs : List Char) :
    (scan q c cs).2 = q := by
  rw [scan]
  split
  · rfl
  split
  · dsimp only
    split
    · rfl
    · rfl
  split
  · rfl
  split
  · rfl
  split
  · rfl
  split
  · rfl
  · rfl

/-! ### All lexemes -/

/-- A text that reads without error takes a value for each placeholder, and is displayed
with these values. -/
theorem lexemes_ok {q after : InputQueue} {cs : List Char} {found : List Lexeme}
    (h : lexemes q cs = (.ok found, after)) :
    after = q.skip (cs.count '?') ∧ found.flatMap Lexeme.shown = filled q cs := by
  fun_induction lexemes q cs generalizing found after with
  | case1 q =>
    cases h
    exact ⟨rfl, rfl⟩
  | case2 q c cs e next hscan => cases h
  | case3 q c cs lexeme rest next hscan outcome queue hrest ih =>
    rcases outcome with e | others
    · cases h
    · cases h
      obtain ⟨part, hsplit, rfl, hshown⟩ := scan_ok hscan
      obtain ⟨hqueue, hothers⟩ := ih hrest
      rw [hsplit, List.count_append, InputQueue.skip_add, filled_append, List.flatMap_cons,
        hshown, hothers]
      exact ⟨hqueue, rfl⟩

/-- A text without placeholders leaves the queue as it is, whether it reads or not. -/
theorem lexemes_of_not_mem {q : InputQueue} {cs : List Char} (h : '?' ∉ cs) :
    (lexemes q cs).2 = q := by
  fun_induction lexemes q cs with
  | case1 q => rfl
  | case2 q c cs e next hscan =>
    rw [List.mem_cons, not_or] at h
    have hqueue := scan_of_ne (fun hc => h.1 hc.symm) q cs
    rw [hscan] at hqueue
    exact hqueue
  | case3 q c cs lexeme rest next hscan outcome queue hrest ih =>
    obtain ⟨part, hsplit, rfl, -⟩ := scan_ok hscan
    rw [hsplit, List.mem_append, not_or] at h
    have hqueue := ih h.2
    rw [hrest, List.count_eq_zero.mpr h.1] at hqueue
    exact hqueue

/-! ### The engine -/

/-- An expression reads without error, as far as its lexemes go. -/
def Lexes (q : InputQueue) (text : String) : Prop :=
  (lexemes q (Text.trim text.toList)).1.isOk = true

instance (q : InputQueue) (text : String) : Decidable (Lexes q text) :=
  inferInstanceAs (Decidable (_ = _))

/-- What is read of a text is the text with the next values in place of its placeholders. -/
theorem Lexes.exists_lexemes {q : InputQueue} {text : String} (h : Lexes q text) :
    ∃ found, (lexemes q (Text.trim text.toList)).1 = .ok found ∧
      found.flatMap Lexeme.shown = filled q (Text.trim text.toList) := by
  rw [Lexes] at h
  rcases hl : lexemes q (Text.trim text.toList) with ⟨err | found, after⟩
  · rw [hl] at h
    cases h
  · exact ⟨found, rfl, (lexemes_ok hl).2⟩

theorem count_dropWhile_isBlank (cs : List Char) :
    (cs.dropWhile Text.isBlank).count '?' = cs.count '?' := by
  induction cs with
  | nil => rfl
  | cons c cs ih =>
    rw [List.dropWhile_cons]
    split
    · next hblank =>
      have hc : c ≠ '?' := by
        rintro rfl
        exact absurd hblank (by decide)
      rw [ih, List.count_cons_of_ne hc]
    · rfl

/-- Trimming takes no placeholder away. -/
theorem count_trim (cs : List Char) : (Text.trim cs).count '?' = cs.count '?' := by
  rw [Text.trim, Text.trimRight, Text.trimLeft]
  rw [List.count_reverse, count_dropWhile_isBlank, List.count_reverse, count_dropWhile_isBlank]

theorem queue_tokens (q : InputQueue) (text : List Char) :
    (tokens q text).2 = (lexemes q (Text.trim text)).2 := by
  rw [tokens]
  split
  · next h => rw [h]
  · next h =>
    dsimp only
    split
    · rw [h]
    · rw [h]

/-- Reading an expression takes a value for each of its placeholders. -/
theorem queue_parse {text : String} {q : InputQueue} (h : '?' ∈ text.toList → Lexes q text)
    (e : Engine) : (MathEngine.parse text q e).2 = q.skip (text.toList.count '?') := by
  have hparse : (MathEngine.parse text q e).2 = (lexemes q (Text.trim text.toList)).2 := by
    rw [← queue_tokens]
    show (Engine.parse text q e).2.2 = _
    rw [Engine.parse, Engine.read]
    rcases tokens q text.toList with ⟨err | reading, after⟩
    · rfl
    · dsimp only
      rcases Expr.ofTokens (String.ofList reading.display) reading.tokens with err | expr
      · rfl
      · rfl
  -- without placeholders the text need not read: the queue is not asked for a value
  rw [hparse, ← count_trim]
  by_cases hmem : '?' ∈ text.toList
  · have hlexes := h hmem
    rw [Lexes] at hlexes
    rcases hl : lexemes q (Text.trim text.toList) with ⟨err | found, after⟩
    · rw [hl] at hlexes
      cases hlexes
    · exact (lexemes_ok hl).1
  · have hzero := List.count_eq_zero.mpr hmem
    rw [← count_trim] at hzero
    rw [hzero, lexemes_of_not_mem (List.count_eq_zero.mp hzero)]
    rfl

end Arithmetic

end Worksheet
