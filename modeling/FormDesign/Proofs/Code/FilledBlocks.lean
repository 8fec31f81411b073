import FormDesign.Proofs.Code.Nested
import FormDesign.Proofs.Identifier

/-!
# Blocks that hold a statement

A Python block needs a statement: blank lines and comments alone are an error. Whether the blocks of
a text have one is asked of the text, block by block, and comes down to the steps in each block.

* `Edit.Filled`: each part that is confined to platforms holds a statement
* `Step.filled_steps`: the same of the steps of a method
-/

namespace FormDesign

namespace Edit

/-! ## Statements -/

/-- The line is neither blank nor a comment. -/
def isCode (line : String) : Bool :=
  (Text.trim line).toList.head?.any (· ≠ '#')

/-- One of the lines of a text is neither blank nor a comment. -/
def hasCode (text : String) : Bool :=
  (Text.splitOn '\n' text).any isCode

/-- The first letter tells, unless it is a blank. -/
theorem hasCode_of_head? {text : String} {c : Char} (first : text.toList.head? = some c)
    (solid : Text.isBlank c = false) (code : c ≠ '#') : hasCode text = true := by
  obtain ⟨rest, hrest⟩ := List.head?_eq_some_iff.1 first
  have feed : c ≠ '\n' := by
    rintro rfl
    cases solid
  obtain ⟨piece, pieces, hsplit⟩ : ∃ piece pieces,
      Text.Chars.splitOn '\n' text.toList = (c :: piece) :: pieces := by
    rw [hrest, Text.Chars.splitOn, if_neg feed]
    split
    · exact ⟨[], [], rfl⟩
    · exact ⟨_, _, rfl⟩
  have start : [c] <+: Text.Chars.trim (c :: piece) := by
    rw [Text.Chars.trim, Text.Chars.trimStart_eq_self (by simpa using solid),
      Text.Chars.prefix_trimEnd_iff (by simpa using solid)]
    exact ⟨piece, rfl⟩
  obtain ⟨trimmed, htrimmed⟩ := start
  rw [hasCode, Text.splitOn, hsplit, List.map_cons, List.any_cons, isCode, Text.trim,
    String.toList_ofList, String.toList_ofList, ← htrimmed]
  simp [code]

/-- The edits lay out a statement at the level they begin at. -/
def HasStatement (es : List Edit) : Prop :=
  ∃ before text after, es = before ++ .line text :: after ∧ IsLevel before ∧ hasCode text = true

/-- Each part that is confined to platforms holds a statement. -/
def Filled (es : List Edit) : Prop :=
  ∀ before platforms body after,
    es = before ++ .line (Dialect.platformCondition .python platforms) :: .indent :: body
      ++ .unindent :: after →
    IsLevel body → HasStatement body

variable {e : Edit} {es fs body : List Edit}

@[simp] theorem not_hasStatement_nil : ¬HasStatement [] := by
  rintro ⟨before, text, after, heq, -⟩
  simp at heq

theorem hasStatement_singleton (text : String) :
    HasStatement [.line text] ↔ hasCode text = true := by
  constructor
  · rintro ⟨before, text', after, heq, -, h⟩
    cases before with
    | nil =>
      obtain ⟨hline, -⟩ := List.cons.inj heq
      obtain rfl := Edit.line.inj hline
      exact h
    | cons b before => simp at heq
  · intro h
    exact ⟨[], text, [], rfl, rfl, h⟩

theorem hasStatement_append (hes : IsLevel es) :
    HasStatement (es ++ fs) ↔ HasStatement es ∨ HasStatement fs := by
  constructor
  · rintro ⟨before, text, after, heq, level, h⟩
    rcases List.append_eq_append_iff.1 heq with ⟨middle, rfl, hfs⟩ | ⟨middle, rfl, hmiddle⟩
    · exact Or.inr ⟨middle, text, after, hfs, (isLevel_of_append hes).1 level, h⟩
    · cases middle with
      | nil => exact Or.inr ⟨[], text, after, hmiddle.symm, rfl, h⟩
      | cons m middle =>
        obtain ⟨rfl, -⟩ := List.cons.inj hmiddle
        exact Or.inl ⟨before, text, middle, rfl, level, h⟩
  · rintro (⟨before, text, after, rfl, level, h⟩ | ⟨before, text, after, rfl, level, h⟩)
    · exact ⟨before, text, after ++ fs, by simp, level, h⟩
    · exact ⟨es ++ before, text, after, by simp, hes.append level, h⟩

/-! ## Blocks in longer texts -/

/-- Edits that end below where they began take the indentation back that was made before them. -/
theorem exists_unindent {n m k : Nat} (h : levelFrom? (k + 1 + n) es = some m) (hm : m ≤ n) :
    ∃ body after, es = body ++ .unindent :: after ∧ levelFrom? k body = some 0 := by
  induction es generalizing k with
  | nil =>
    have heq := Option.some.inj h
    omega
  | cons e es ih =>
    rw [levelFrom?_cons] at h
    have deeper (l : Nat) (hl : levelAfter? k e = some l)
        (h : levelFrom? (l + 1 + n) es = some m) :
        ∃ body after, e :: es = body ++ .unindent :: after ∧ levelFrom? k body = some 0 := by
      obtain ⟨body, after, rfl, hbody⟩ := ih h
      exact ⟨e :: body, after, rfl, by rw [levelFrom?_cons, hl]; exact hbody⟩
    cases e with
    | indent =>
      refine deeper (k + 1) rfl ?_
      rw [show k + 1 + 1 + n = k + 1 + n + 1 by omega]
      exact h
    | unindent =>
      cases k with
      | zero => exact ⟨[], es, rfl, rfl⟩
      | succ k =>
        refine deeper k (by simp [levelAfter?]) ?_
        rw [levelAfter?, if_neg (by omega)] at h
        rw [show k + 1 + n = k + 1 + 1 + n - 1 by omega]
        exact h
    | _ => exact deeper k rfl h

/-- A block that begins in level edits ends in them. -/
theorem IsLevel.block_mem {before rest body after : List Edit} {header : String}
    (level : IsLevel (before ++ .line header :: .indent :: rest)) (hbody : IsLevel body)
    (heq : rest ++ fs = body ++ .unindent :: after) :
    ∃ after', rest = body ++ .unindent :: after' := by
  rw [IsLevel, levelFrom?_append, Option.bind_eq_some_iff] at level
  obtain ⟨n, -, level⟩ := level
  have inner : Edit.levelFrom? (0 + 1 + n) rest = some 0 := by
    rw [show 0 + 1 + n = n + 1 by omega]
    exact level
  obtain ⟨body', after', rfl, hbody'⟩ := exists_unindent inner (Nat.zero_le n)
  rw [List.append_assoc, List.cons_append] at heq
  obtain ⟨rfl, -⟩ := IsLevel.eq_of_append_unindent hbody' hbody heq
  exact ⟨after', rfl⟩

theorem Filled.left (h : Filled (es ++ fs)) : Filled es := by
  rintro before platforms body after rfl level
  exact h before platforms body (after ++ fs) (by simp) level

theorem Filled.right (h : Filled (es ++ fs)) : Filled fs := by
  rintro before platforms body after rfl level
  exact h (es ++ before) platforms body after (by simp) level

/-- Blocks do not reach over the end of level edits, if what follows is no part of a header. -/
theorem filled_append (hes : IsLevel es) (hfs : fs.head? ≠ some .indent) :
    Filled (es ++ fs) ↔ Filled es ∧ Filled fs := by
  refine ⟨fun h => ⟨h.left, h.right⟩, ?_⟩
  rintro ⟨left, right⟩ before platforms body after heq level
  rw [List.append_assoc] at heq
  rcases List.append_eq_append_iff.1 heq with ⟨middle, rfl, hblock⟩ | ⟨middle, rfl, hblock⟩
  · exact right middle platforms body after (by simpa using hblock) level
  -- The header stands in `es`, unless nothing of `es` is left.
  · cases middle with
    | nil => exact right [] platforms body after hblock.symm level
    | cons m middle =>
      simp only [List.cons_append, List.cons.injEq] at hblock
      obtain ⟨rfl, hblock⟩ := hblock
      cases middle with
      | nil =>
        rw [List.nil_append] at hblock
        exact absurd (congrArg List.head? hblock.symm) hfs
      | cons m middle =>
        obtain ⟨rfl, hrest⟩ := List.cons.inj hblock
        obtain ⟨after', rfl⟩ := hes.block_mem level hrest.symm
        exact left before platforms body after' (by simp) level

theorem filled_of_length_lt (h : es.length < 3) : Filled es := by
  rintro before platforms body after rfl level
  simp at h
  omega

/-- A block is filled if it holds a statement, where it needs one, and the blocks in it are. -/
theorem filled_block (header : String) (hbody : IsLevel body) :
    Filled (.line header :: .indent :: body ++ [.unindent]) ↔
      ((∃ platforms, header = Dialect.platformCondition .python platforms) → HasStatement body) ∧
        Filled body := by
  constructor
  · intro h
    refine ⟨?_, ?_⟩
    · rintro ⟨platforms, rfl⟩
      exact h [] platforms body [] rfl hbody
    · have tail : Filled ([.line header, .indent] ++ (body ++ [.unindent])) := by simpa using h
      exact tail.right.left
  · rintro ⟨statement, inner⟩ before platforms body' after heq level
    cases before with
    | nil =>
      simp only [List.cons_append, List.nil_append, List.cons.injEq, true_and] at heq
      obtain ⟨hheader, hrest⟩ := heq
      obtain ⟨rfl, -⟩ := hbody.eq_of_append_unindent level hrest
      exact statement ⟨platforms, Edit.line.inj hheader⟩
    | cons b before =>
      simp only [List.cons_append, List.cons.injEq] at heq
      obtain ⟨-, heq⟩ := heq
      cases before with
      | nil => simp at heq
      | cons b before =>
        simp only [List.cons_append, List.cons.injEq] at heq
        obtain ⟨-, heq⟩ := heq
        have inside : Filled (body ++ [.unindent]) :=
          (filled_append hbody (by simp)).2 ⟨inner, filled_of_length_lt (by simp)⟩
        exact inside before platforms body' after (by simpa using heq) level

end Edit

/-! ## Steps -/

namespace Dialect

theorem head?_platformCondition (platforms : List Platform) :
    (platformCondition .python platforms).toList.head? = some 'i' := by
  cases platforms with
  | nil => decide
  | cons => simp [platformCondition]

mutual

/-- In Python no line by itself opens or closes a block, so any steps are nested. -/
theorem nested_step_python (st : Step) : Nested .python (step .python st) := by
  cases st with
  | within selector body => exact nested_within (nested_steps_python body) selector
  | stmt s => exact .plain List.not_mem_nil .nil
  | bind b => exact nested_line? fun _ _ => List.not_mem_nil
  | validate control v => exact nested_line? fun _ _ => List.not_mem_nil
  | gap => exact .plain trivial .nil
  | warn text => exact .nil

theorem nested_steps_python (steps : List Step) : Nested .python (Dialect.steps .python steps) := by
  cases steps with
  | nil => exact .nil
  | cons st rest => exact (nested_step_python st).append (nested_steps_python rest)

end

/-- Nested edits do not begin in the middle of a header. -/
theorem Nested.head?_ne_indent {d : Dialect} {es : List Edit} (h : d.Nested es) :
    es.head? ≠ some .indent := by
  cases h with
  | nil => simp
  | plain he _ =>
    rintro heq
    obtain rfl := Option.some.inj heq
    exact he
  | block hblock _ _ => cases hblock <;> simp

end Dialect

namespace Step

open Edit

/-- The step is written as a statement, and not as a comment or not at all. -/
def speaks : Step → Bool
  | .stmt s => hasCode (Dialect.stmt .python s)
  | .bind b => (Dialect.binding .python b).any hasCode
  | .within .. => true
  | .validate .. | .gap | .warn _ => false

mutual

/-- The bodies of the blocks in a step. -/
def bodies : Step → List (List Step)
  | .within _ body => body :: bodiesAll body
  | .stmt _ | .bind _ | .validate .. | .gap | .warn _ => []

/-- The bodies of the blocks in several steps. -/
def bodiesAll : List Step → List (List Step)
  | [] => []
  | st :: rest => bodies st ++ bodiesAll rest

end

theorem bodiesAll_append (xs ys : List Step) :
    bodiesAll (xs ++ ys) = bodiesAll xs ++ bodiesAll ys := by
  induction xs with
  | nil => rfl
  | cons x xs ih => simp only [List.cons_append, bodiesAll, ih, List.append_assoc]

/-- Steps that hold no others open no blocks. -/
theorem bodiesAll_eq_nil {steps : List Step} (h : Each (fun st => st.bodies = []) steps) :
    bodiesAll steps = [] := by
  induction steps with
  | nil => rfl
  | cons st rest ih =>
    rw [each_cons] at h
    rw [bodiesAll, h.1, ih h.2, List.append_nil]

theorem bodies_of_plain {st : Step} (h : st.isPlain = true) : st.bodies = [] := by
  cases st <;> first | rfl | cases h

/-- A condition is a statement, whatever the platforms. -/
theorem hasCode_platformCondition (platforms : List Platform) :
    hasCode (Dialect.platformCondition .python platforms) = true :=
  hasCode_of_head? (Dialect.head?_platformCondition platforms) (by decide) (by decide)

theorem hasStatement_step (st : Step) :
    HasStatement (Dialect.step .python st) ↔ st.speaks = true := by
  cases st with
  | stmt s => exact hasStatement_singleton _
  | bind b =>
    simp only [Dialect.step, speaks]
    cases Dialect.binding .python b with
    | none => exact iff_of_false not_hasStatement_nil (by simp)
    | some text => exact hasStatement_singleton text
  | within selector body =>
    exact iff_of_true ⟨[], _, _, rfl, rfl, hasCode_platformCondition _⟩ rfl
  | validate control v => exact iff_of_false not_hasStatement_nil (by simp [speaks])
  | gap =>
    refine iff_of_false ?_ (by simp [speaks])
    rintro ⟨before, text, after, heq, -⟩
    cases before <;> simp [Dialect.step] at heq
  | warn text => exact iff_of_false not_hasStatement_nil (by simp [speaks])

theorem hasStatement_steps (steps : List Step) :
    HasStatement (Dialect.steps .python steps) ↔ ∃ st ∈ steps, st.speaks = true := by
  induction steps with
  | nil => simp [Dialect.steps]
  | cons st rest ih =>
    rw [Dialect.steps, hasStatement_append (Dialect.nested_step_python st).isLevel,
      hasStatement_step, ih]
    simp

mutual

/-- Of the blocks in a step. -/
theorem filled_step (st : Step) :
    Filled (Dialect.step .python st) ↔ ∀ body ∈ st.bodies, ∃ st ∈ body, st.speaks = true := by
  cases st with
  | within selector body =>
    have level := (Dialect.nested_steps_python body).isLevel
    have condition : ∃ platforms, Dialect.platformCondition .python (Platform.ofSelector selector)
        = Dialect.platformCondition .python platforms := ⟨_, rfl⟩
    rw [bodies, List.forall_mem_cons, ← hasStatement_steps, ← filled_steps body]
    exact (filled_block _ level).trans (and_congr_left' (forall_prop_of_true condition))
  | bind b =>
    refine iff_of_true (filled_of_length_lt ?_) (by simp [bodies])
    simp only [Dialect.step, List.length_map]
    cases Dialect.binding .python b <;> simp
  | _ =>
    refine iff_of_true (filled_of_length_lt ?_) (by simp [bodies])
    simp [Dialect.step, Dialect.validatorBinding]

/-- **The blocks of a method are filled if every block of its steps has a step that is written as a
statement.** -/
theorem filled_steps (steps : List Step) :
    Filled (Dialect.steps .python steps) ↔
      ∀ body ∈ bodiesAll steps, ∃ st ∈ body, st.speaks = true := by
  cases steps with
  | nil => exact iff_of_true (filled_of_length_lt (by decide)) (by simp [bodiesAll])
  | cons st rest =>
    rw [Dialect.steps, filled_append (Dialect.nested_step_python st).isLevel
      (Dialect.nested_steps_python rest).head?_ne_indent, filled_step st, filled_steps rest,
      bodiesAll, List.forall_mem_append]

end

end Step

end FormDesign
