import FormDesign.Proofs.Layout

/-!
# Texts laid out in place

Edits lay out a text of their own, which is then put at the end of another one, or they lay it out
there in place. In the first way lines are indented twice, when they are written and when they come
into the other text; in the second way they are indented once. The lines are the same. Only a gap
before the first line tells the two ways apart: in a text of its own it has nothing to follow.

* `Lines.inside`: a text within another one, with the indentation of both
* `Lines.apply_inside`, `Lines.run_inside`: edits made there are edits of the inner text
* `Lines.run_eq_inside`: edits in place are a text of their own, behind the gap they begin with
* `Lines.lines_append_eq_iff`: when the lines are the same in both ways
* `Lines.append_run_of_isLevel`: when the indentation for lines to come is the same too
-/

namespace FormDesign

theorem Text.times_add (m n : Nat) (s : String) : times (m + n) s = times m s ++ times n s := by
  rw [times, ← List.replicate_append_replicate, String.join_append]
  rfl

/-- Whether there is a gap before the first line. -/
def Edit.beginsWithGap : List Edit → Bool
  | [] | .line _ :: _ | .flush _ :: _ => false
  | .gap :: _ => true
  | .indent :: es | .unindent :: es | .trim :: es => beginsWithGap es

namespace Lines

variable {w u : Lines} {e : Edit} {es : List Edit} {n : Nat}

/-! ## What edits keep -/

theorem unit_apply (w : Lines) (e : Edit) : (w.apply e).unit = w.unit := by
  cases e with
  | line text => rw [apply_line]
  | gap => simp only [apply, apply_ite unit, ite_self]
  | _ => rfl

theorem size_pos_apply_line (w : Lines) (text : String) : 0 < (w.apply (.line text)).size := by
  have := List.length_pos_iff.2 (Text.splitOn_ne_nil '\n' text)
  simp only [apply_line, size, Array.size_append, List.size_toArray, List.length_map]
  omega

theorem size_pos_apply_flush (w : Lines) (text : String) : 0 < (w.apply (.flush text)).size := by
  simp [apply, size]

/-! ## Gaps -/

theorem endsInText_of_size_eq_zero (h : w.size = 0) : w.endsInText = false := by
  rw [endsInText, Array.eq_empty_of_size_eq_zero h]
  rfl

theorem apply_gap_of_not_endsInText (h : w.endsInText = false) : w.apply .gap = w := by
  simp [apply, h]

theorem apply_gap_of_endsInText (h : w.endsInText = true) :
    w.apply .gap = { w with lines := w.lines.push { text := "", flush := false } } := by
  simp [apply, h]

theorem endsInText_apply_gap (w : Lines) : (w.apply .gap).endsInText = false := by
  cases h : w.endsInText with
  | false => rwa [apply_gap_of_not_endsInText h]
  | true => simp [apply_gap_of_endsInText h, endsInText]

/-- One gap is enough. -/
@[simp] theorem apply_gap_gap (w : Lines) : (w.apply .gap).apply .gap = w.apply .gap :=
  apply_gap_of_not_endsInText (endsInText_apply_gap w)

theorem size_le_apply_gap (w : Lines) : w.size ≤ (w.apply .gap).size := by
  cases h : w.endsInText with
  | false => exact Nat.le_of_eq (by rw [apply_gap_of_not_endsInText h])
  | true => simp [apply_gap_of_endsInText h, size]

/-! ## A text within another one -/

/-- The text `u` within `w`, at the end of it: lines to come have the indentation of both. -/
def inside (w u : Lines) : Lines :=
  { w.append u with level := w.level + u.level }

theorem inside_empty (w : Lines) (unit : String) : w.inside (empty unit) = w := by
  simp [inside, append, empty]

theorem margin_inside (h : u.unit = w.unit) : (w.inside u).margin = w.margin ++ u.margin := by
  rw [margin, margin, margin, h]
  exact Text.times_add w.level u.level w.unit

theorem text_nested_eq_empty (margin : String) (l : Line) :
    (nested margin l).text = "" ↔ l.text = "" := by
  simp only [nested, Bool.or_eq_true, beq_iff_eq]
  split
  · rfl
  next visible =>
    rw [String.append_eq_empty_iff]
    exact and_iff_right_of_imp fun blank => absurd (Or.inr blank) visible

/-- A line that is written inside has the indentation of both texts, unless it is blank. -/
theorem indented_inside (h : u.unit = w.unit) (text : String) :
    (w.inside u).indented text = nested w.margin (u.indented text) := by
  rw [indented, margin_inside h]
  split
  next blank => simp [indented, nested, blank]
  next visible => simp [indented, nested, visible, String.append_assoc]

theorem apply_line_inside (h : u.unit = w.unit) (text : String) :
    (w.inside u).apply (.line text) = w.inside (u.apply (.line text)) := by
  have lines : (w.inside u).indented = nested w.margin ∘ u.indented :=
    funext (indented_inside h)
  rw [apply_line, apply_line, lines, ← List.map_map]
  simp [inside, append, Array.append_assoc]

theorem endsInText_inside_of_size_eq_zero (h : u.size = 0) :
    (w.inside u).endsInText = w.endsInText := by
  simp [endsInText, inside, append, Array.eq_empty_of_size_eq_zero h]

theorem endsInText_inside_of_size_pos (h : 0 < u.size) :
    (w.inside u).endsInText = u.endsInText := by
  cases hlast : u.lines.back? with
  | none => simp [size, Array.back?_eq_none_iff.1 hlast] at h
  | some l =>
    rw [Bool.eq_iff_iff]
    simp [endsInText, inside, append, hlast, text_nested_eq_empty]

/-- Where there is no line inside, a gap stands in the text around. -/
theorem apply_gap_inside_of_size_eq_zero (h : u.size = 0) :
    (w.inside u).apply .gap = (w.apply .gap).inside u := by
  have same := endsInText_inside_of_size_eq_zero (w := w) h
  cases hw : w.endsInText with
  | false =>
    rw [apply_gap_of_not_endsInText hw]
    exact apply_gap_of_not_endsInText (same.trans hw)
  | true =>
    rw [apply_gap_of_endsInText hw, apply_gap_of_endsInText (same.trans hw)]
    simp [inside, append, Array.eq_empty_of_size_eq_zero h]

theorem apply_gap_inside_of_size_pos (h : 0 < u.size) :
    (w.inside u).apply .gap = w.inside (u.apply .gap) := by
  have same := endsInText_inside_of_size_pos (w := w) h
  cases hu : u.endsInText with
  | false =>
    rw [apply_gap_of_not_endsInText hu]
    exact apply_gap_of_not_endsInText (same.trans hu)
  | true =>
    rw [apply_gap_of_endsInText hu, apply_gap_of_endsInText (same.trans hu)]
    simp [inside, append, nested]

/-! ## Edits within another text -/

/-- The text around `u`, with the gap that edits begin with while `u` has no lines. -/
def around (w u : Lines) (es : List Edit) : Lines :=
  if u.size = 0 ∧ Edit.beginsWithGap es then w.apply .gap else w

theorem around_of_size_pos (h : 0 < u.size) : w.around u es = w :=
  if_neg fun empty => by omega

theorem around_of_not_beginsWithGap (h : Edit.beginsWithGap es = false) : w.around u es = w :=
  if_neg fun begins => by simp [h] at begins

theorem unit_around (w u : Lines) (es : List Edit) : (w.around u es).unit = w.unit := by
  rw [around]
  split
  · exact unit_apply w .gap
  · rfl

/-- **One edit within another text** is an edit of the inner text, and of the text around if it is a
gap before the first line. -/
theorem apply_inside (hunit : u.unit = w.unit) (hlevel : Edit.levelAfter? u.level e = some n)
    (htrim : e ≠ .trim) : (w.inside u).apply e = (w.around u [e]).inside (u.apply e) := by
  cases e with
  | line text =>
    rw [around_of_not_beginsWithGap rfl]
    exact apply_line_inside hunit text
  | flush text =>
    rw [around_of_not_beginsWithGap rfl]
    simp [apply, inside, append, nested]
  | gap =>
    rcases Nat.eq_zero_or_pos u.size with h | h
    · rw [around, if_pos ⟨h, rfl⟩, apply_gap_of_not_endsInText (endsInText_of_size_eq_zero h)]
      exact apply_gap_inside_of_size_eq_zero h
    · rw [around_of_size_pos h]
      exact apply_gap_inside_of_size_pos h
  | indent =>
    rw [around_of_not_beginsWithGap rfl]
    rfl
  | unindent =>
    rw [around_of_not_beginsWithGap rfl]
    -- Without an indentation inside, one of the text around would be taken back.
    have pos : u.level ≠ 0 := fun zero => by simp [Edit.levelAfter?, zero] at hlevel
    have level : w.level + u.level - 1 = w.level + (u.level - 1) := by omega
    simp [apply, inside, append, level]
  | trim => exact absurd rfl htrim

/-- The gap that edits begin with is the first one among them. -/
theorem around_cons (htrim : e ≠ .trim) :
    (w.around u [e]).around (u.apply e) es = w.around u (e :: es) := by
  cases e with
  | line text =>
    rw [around_of_size_pos (size_pos_apply_line u text), around_of_not_beginsWithGap rfl,
      around_of_not_beginsWithGap rfl]
  | flush text =>
    rw [around_of_size_pos (size_pos_apply_flush u text), around_of_not_beginsWithGap rfl,
      around_of_not_beginsWithGap rfl]
  | gap =>
    rcases Nat.eq_zero_or_pos u.size with h | h
    · simp [around, Edit.beginsWithGap, h]
    · rw [around_of_size_pos (Nat.lt_of_lt_of_le h (size_le_apply_gap u)), around_of_size_pos h,
        around_of_size_pos h]
  | indent => simp [around, Edit.beginsWithGap, apply, size]
  | unindent => simp [around, Edit.beginsWithGap, apply, size]
  | trim => exact absurd rfl htrim

/-- **Edits within another text** are edits of the inner text, behind the gap they begin with. -/
theorem run_inside (hunit : u.unit = w.unit) (hlevel : Edit.levelFrom? u.level es = some n)
    (htrim : .trim ∉ es) : (w.inside u).run es = (w.around u es).inside (u.run es) := by
  induction es generalizing w u with
  | nil =>
    rw [around_of_not_beginsWithGap rfl]
    rfl
  | cons e es ih =>
    -- The text around changes with the inner one if `e` is a gap before the first line.
    rw [List.mem_cons, not_or] at htrim
    obtain ⟨l, hl, hlevel⟩ := Option.bind_eq_some_iff.1 (Edit.levelFrom?_cons ▸ hlevel)
    have first : e ≠ .trim := Ne.symm htrim.1
    calc ((w.inside u).apply e).run es
        = ((w.around u [e]).inside (u.apply e)).run es := by rw [apply_inside hunit hl first]
      _ = ((w.around u [e]).around (u.apply e) es).inside ((u.apply e).run es) := by
          refine ih ?_ (by rwa [level_apply hl]) htrim.2
          rw [unit_apply, unit_around, hunit]
      _ = (w.around u (e :: es)).inside ((u.apply e).run es) := by rw [around_cons first]

/-! ## Appended texts -/

/-- Edits in place lay out the text that they are on their own, behind the gap they begin with. -/
theorem run_eq_inside (w : Lines) (hlevel : Edit.levelFrom? 0 es = some n) (htrim : .trim ∉ es) :
    w.run es = (if Edit.beginsWithGap es then w.apply .gap else w).inside
      ((empty w.unit).run es) := by
  have h := run_inside (w := w) (u := empty w.unit) rfl hlevel htrim
  rw [inside_empty] at h
  simpa [around, empty, size] using h

/-- The lines differ only where a gap before the first line stands right behind text. -/
theorem lines_append_eq_iff (w : Lines) (hlevel : Edit.levelFrom? 0 es = some n)
    (htrim : .trim ∉ es) :
    (w.append ((empty w.unit).run es)).lines = (w.run es).lines ↔
      (Edit.beginsWithGap es → w.endsInText = false) := by
  rw [run_eq_inside w hlevel htrim]
  cases hgap : Edit.beginsWithGap es with
  | false => exact iff_of_true rfl nofun
  | true =>
    cases hw : w.endsInText with
    | false =>
      rw [if_pos rfl, apply_gap_of_not_endsInText hw]
      exact iff_of_true rfl fun _ => rfl
    | true =>
      rw [if_pos rfl, apply_gap_of_endsInText hw]
      refine iff_of_false (fun same => ?_) (by simp)
      have := congrArg Array.size same
      simp [inside, append] at this

-- The gap follows "first" in place, and nothing in a text of its own.
example :
    let w := (empty "\t").run [.line "first"]
    (w.append ((empty "\t").run [.gap, .line "second"])).finish = "first\nsecond\n" ∧
      (w.run [.gap, .line "second"]).finish = "first\n\nsecond\n" := by
  decide +kernel

/-- Edits that take back their own indentations lay out the same text in both ways, so whatever
follows is the same too. -/
theorem append_run_of_isLevel (w : Lines) (hlevel : Edit.IsLevel es) (htrim : .trim ∉ es)
    (hgap : Edit.beginsWithGap es = false) : w.append ((empty w.unit).run es) = w.run es := by
  have level : ((empty w.unit).run es).level = 0 := hlevel.level_run _
  rw [run_eq_inside w hlevel htrim, hgap]
  simp [inside, append, level]

/-- **A text that is laid out on its own and then appended is the one laid out in place:** the lines
are the same, and so is the finished text. The edits take back only indentations of their own, they
drop no blank lines, and no gap comes before their first line. -/
theorem append_run_eq (w : Lines) (hlevel : Edit.levelFrom? 0 es = some n) (htrim : .trim ∉ es)
    (hgap : Edit.beginsWithGap es = false) :
    (w.append ((empty w.unit).run es)).lines = (w.run es).lines ∧
      (w.append ((empty w.unit).run es)).finish = (w.run es).finish := by
  have place : w.run es = w.inside ((empty w.unit).run es) := by
    rw [run_eq_inside w hlevel htrim, hgap]
    rfl
  rw [place]
  exact ⟨rfl, rfl⟩

/-- A text with an indentation for what comes next. -/
def methodHead : Lines :=
  (empty "  ").run [.line "def show", .indent]

/-- Lines of all kinds: without indentation, blank, two in one text, behind a gap. The indentation
before the last line stays. -/
def guardedCalls : List Edit :=
  [.flush "#if WINDOWS", .line "if ready", .indent, .line "open()\n\nclose()", .gap, .gap,
    .unindent, .line "end\n", .gap, .flush "#endif", .indent, .line "exit()"]

theorem guardedCalls_append :
    Edit.levelFrom? 0 guardedCalls = some 1 ∧ .trim ∉ guardedCalls ∧
      Edit.beginsWithGap guardedCalls = false ∧
      ((methodHead.append ((empty "  ").run guardedCalls)).lines
          = (methodHead.run guardedCalls).lines ∧
        (methodHead.append ((empty "  ").run guardedCalls)).finish
          = (methodHead.run guardedCalls).finish) ∧
      (methodHead.run guardedCalls).finish
        = "def show\n#if WINDOWS\n  if ready\n    open()\n\n    close()\n\n  end\n\n#endif\n"
          ++ "    exit()\n" :=
  ⟨rfl, by decide, rfl, append_run_eq methodHead rfl (by decide) rfl, by decide +kernel⟩

end Lines

end FormDesign
