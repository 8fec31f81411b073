import FormDesign.Layout

/-!
# Levels of indentation

Taking an indentation back that was never made does nothing, so a missing or an additional step
shifts the lines after it without a failure. The levels that edits pass through tell the two apart:
they are counted here with a failure where an indentation is missing.

* `Edit.IsLevel`: edits that take back their own indentations and no others
* `Edit.IsLevel.level_run`: they leave the level of a text as it is
* `Edit.IsLevel.lt_level_run`: inside of them the level is never below that of the text around
* `Edit.IsLevel.eq_of_append_unindent`: an indentation is taken back in one place
-/

namespace FormDesign

namespace Edit

/-- The level after an edit, unless there is no indentation to take back. -/
def levelAfter? (n : Nat) : Edit → Option Nat
  | .indent => some (n + 1)
  | .unindent => if n = 0 then none else some (n - 1)
  | .line _ | .flush _ | .gap | .trim => some n

/-- The level after several edits. -/
def levelFrom? (n : Nat) (es : List Edit) : Option Nat :=
  es.foldlM levelAfter? n

/-- The edits take back each of their indentations, and none that was made before them. -/
def IsLevel (es : List Edit) : Prop :=
  levelFrom? 0 es = some 0

variable {n m k : Nat} {e : Edit} {es fs before after : List Edit}

@[simp] theorem levelFrom?_nil : levelFrom? n [] = some n := rfl

theorem levelFrom?_cons : levelFrom? n (e :: es) = (levelAfter? n e).bind (levelFrom? · es) := rfl

theorem levelFrom?_append :
    levelFrom? n (es ++ fs) = (levelFrom? n es).bind (levelFrom? · fs) :=
  List.foldlM_append

/-! ## Levels on top of others -/

theorem levelAfter?_add (h : levelAfter? n e = some m) : levelAfter? (n + k) e = some (m + k) := by
  cases e with
  | indent => grind [levelAfter?]
  | unindent => grind [levelAfter?]
  | _ => simpa [levelAfter?] using h

/-- The same edits on top of `k` more levels. -/
theorem levelFrom?_add (h : levelFrom? n es = some m) : levelFrom? (n + k) es = some (m + k) := by
  induction es generalizing n with
  | nil =>
    obtain rfl := Option.some.inj h
    rfl
  | cons e es ih =>
    rw [levelFrom?_cons, Option.bind_eq_some_iff] at h
    obtain ⟨l, hl, h⟩ := h
    rw [levelFrom?_cons, levelAfter?_add hl]
    exact ih h

theorem IsLevel.levelFrom? (h : IsLevel es) (n : Nat) : levelFrom? n es = some n := by
  simpa using levelFrom?_add (k := n) h

/-! ## Level edits -/

@[simp] theorem isLevel_nil : IsLevel [] := rfl

theorem isLevel_of_append (h : IsLevel es) : IsLevel (es ++ fs) ↔ IsLevel fs := by
  rw [IsLevel, levelFrom?_append, h]
  rfl

theorem IsLevel.append (hes : IsLevel es) (hfs : IsLevel fs) : IsLevel (es ++ fs) :=
  (isLevel_of_append hes).2 hfs

/-- An indentation around level edits. -/
theorem IsLevel.indented (h : IsLevel es) : IsLevel (.indent :: es ++ [.unindent]) := by
  rw [IsLevel, List.cons_append, levelFrom?_cons]
  simp only [levelAfter?, Option.bind_some, levelFrom?_append, h.levelFrom?, levelFrom?_cons]
  rfl

/-- Before a step back the level is above 0. -/
theorem exists_of_levelFrom?_append_unindent
    (h : levelFrom? n (before ++ .unindent :: after) = some m) :
    ∃ l, levelFrom? n before = some (l + 1) := by
  rw [levelFrom?_append, Option.bind_eq_some_iff] at h
  obtain ⟨l, hl, h⟩ := h
  cases l with
  | zero => cases h
  | succ l => exact ⟨l, hl⟩

/-- **An indentation is taken back in one place:** of two steps back with level edits before them,
neither comes first. -/
theorem IsLevel.eq_of_append_unindent {es' fs' : List Edit} (h : IsLevel es) (h' : IsLevel es')
    (heq : es ++ .unindent :: fs = es' ++ .unindent :: fs') : es = es' ∧ fs = fs' := by
  -- What one of them has more would begin with the step back of the other.
  have stop (xs ys rest rest' : List Edit) (hx : IsLevel xs) (hxy : IsLevel (xs ++ ys))
      (hys : .unindent :: rest = ys ++ .unindent :: rest') : ys = [] := by
    cases ys with
    | nil => rfl
    | cons y ys =>
      obtain ⟨rfl, -⟩ := List.cons.inj hys
      cases (isLevel_of_append hx).1 hxy
  rcases List.append_eq_append_iff.1 heq with ⟨ys, rfl, hys⟩ | ⟨ys, rfl, hys⟩
  · obtain rfl := stop es ys fs fs' h h' hys
    simpa using hys
  · obtain rfl := stop es' ys fs' fs h' h hys
    simpa using hys.symm

end Edit

/-! ## Levels of a text -/

namespace Lines

variable {w : Lines} {n : Nat} {es before after : List Edit}

/-- A line at the current indentation. -/
def indented (w : Lines) (text : String) : Line :=
  { text := if text = "" then "" else w.margin ++ text, flush := false }

theorem foldl_putLine (texts : List String) (w : Lines) :
    texts.foldl putLine w = { w with lines := w.lines ++ (texts.map w.indented).toArray } := by
  induction texts generalizing w with
  | nil => simp
  | cons text texts ih =>
    have same : (w.putLine text).indented = w.indented := rfl
    rw [List.foldl_cons, ih, same]
    simp [putLine, indented]

theorem apply_line (w : Lines) (text : String) :
    w.apply (.line text)
      = { w with lines := w.lines ++ ((Text.splitOn '\n' text).map w.indented).toArray } :=
  foldl_putLine _ w

theorem level_apply {e : Edit} (h : Edit.levelAfter? w.level e = some n) :
    (w.apply e).level = n := by
  cases e with
  | line text =>
    obtain rfl := Option.some.inj h
    rw [apply_line]
  | gap =>
    obtain rfl := Option.some.inj h
    simp only [apply, apply_ite level, ite_self]
  | unindent =>
    rw [Edit.levelAfter?] at h
    split at h
    · cases h
    · exact Option.some.inj h
  | _ => exact Option.some.inj h

theorem level_run (h : Edit.levelFrom? w.level es = some n) : (w.run es).level = n := by
  induction es generalizing w with
  | nil => exact Option.some.inj h
  | cons e es ih =>
    rw [Edit.levelFrom?_cons, Option.bind_eq_some_iff] at h
    obtain ⟨l, hl, h⟩ := h
    exact ih (w := w.apply e) (by rwa [level_apply hl])

end Lines

namespace Edit

variable {es : List Edit}

/-- Level edits leave the level of a text as it is. -/
theorem IsLevel.level_run (h : IsLevel es) (w : Lines) : (w.run es).level = w.level :=
  Lines.level_run (h.levelFrom? w.level)

/-- Level edits take back no indentation of the text before them. -/
theorem IsLevel.lt_level_run (h : IsLevel es) (w : Lines) {before after : List Edit}
    (heq : es = before ++ .unindent :: after) : w.level < (w.run before).level := by
  subst heq
  obtain ⟨l, hl⟩ := exists_of_levelFrom?_append_unindent h
  have level : (w.run before).level = l + 1 + w.level :=
    Lines.level_run (by simpa using levelFrom?_add (k := w.level) hl)
  omega

end Edit

end FormDesign
