import FormDesign.Dialect.Literal
import Mathlib.Algebra.Ring.Parity
import Mathlib.Data.List.Induction

/-!
# Literals are read back

A text that was written between double quotes is read back as it was, and nothing in it ends the
literal before its closing quote, starts an interpolation or breaks the line. Whether a character is
escaped depends on all the backslashes in front of it: it is when their number is odd.

* `Text.Chars.odd_backslashes_of_escape`: what needs a backslash has one of its own
* `Text.Chars.readQuoted?_escape`: escapes are undone, whatever follows the closing quote
* `Dialect.isLiteral_textLiteral`: the literals of the dialects
-/

namespace FormDesign

namespace Text.Chars

variable {special : List Char}

/-! ## Backslashes -/

/-- How many backslashes a text ends in. -/
def backslashes (s : List Char) : Nat :=
  (s.reverse.takeWhile (· == '\\')).length

@[simp] theorem backslashes_nil : backslashes [] = 0 := rfl

theorem backslashes_concat (s : List Char) (c : Char) :
    backslashes (s ++ [c]) = if c = '\\' then backslashes s + 1 else 0 := by
  by_cases h : c = '\\' <;> simp [backslashes, h]

/-- Backslashes that are escapes and escaped in turn make no difference to what follows. -/
theorem odd_backslashes_append {front : List Char} (even : Even (backslashes front))
    (s : List Char) : Odd (backslashes (front ++ s)) ↔ Odd (backslashes s) := by
  induction s using List.reverseRecOn with
  | nil => simpa using even
  | append_singleton s c ih =>
    rw [← List.append_assoc, backslashes_concat, backslashes_concat]
    split
    · rw [Nat.odd_add_one, Nat.odd_add_one, ih]
    · rfl

/-- A character is written in a way that leaves no backslash open. -/
theorem even_backslashes_escapeChar (special : List Char) (c : Char) :
    Even (backslashes (escapeChar special c)) := by
  have pair : Even (backslashes ['\\', '\\']) := by decide
  have other {d : Char} (h : d ≠ '\\') (front : List Char) : Even (backslashes (front ++ [d])) := by
    rw [backslashes_concat, if_neg h]
    exact Even.zero
  by_cases hc : c = '\\'
  · rw [escapeChar, if_pos (Or.inl hc), hc]
    exact pair
  · unfold escapeChar
    split_ifs
    · exact other hc ['\\']
    · exact other (by decide) ['\\']
    · exact other (by decide) ['\\']
    · exact other (by decide) ['\\']
    · exact other hc ['\\']
    · exact other hc []

/-- Within what is written for one character, a quote or a special character stands behind a
backslash. -/
theorem odd_backslashes_of_escapeChar (backslash : '\\' ∉ special) {c d : Char}
    {before after : List Char} (h : escapeChar special d = before ++ c :: after)
    (hc : c = '"' ∨ c ∈ special) : Odd (backslashes before) := by
  have away : c ≠ '\\' := by
    rintro rfl
    rcases hc with hc | hc
    · cases hc
    · exact backslash hc
  -- what is written has a backslash in front, or it is a character that needs none
  have behind {e : Char} (h : ['\\', e] = before ++ c :: after) : Odd (backslashes before) := by
    match before, h with
    | [], h => exact absurd (List.cons.inj h).1.symm away
    | [_], h =>
      obtain ⟨rfl, -⟩ := List.cons.inj h
      exact odd_one
    | _ :: _ :: _, h => simp at h
  unfold escapeChar at h
  split_ifs at h with quote _ _ _ listed
  case neg =>
    obtain ⟨rfl, rfl, rfl⟩ : before = [] ∧ d = c ∧ [] = after := by
      cases before <;> simp_all
    rcases hc with hc | hc
    · exact absurd (Or.inr hc) quote
    · exact absurd (List.contains_iff_mem.2 hc) listed
  all_goals exact behind h

/-- **What needs a backslash has one of its own**: an odd number of them stand in front of every
quote and every special character. -/
theorem odd_backslashes_of_escape (backslash : '\\' ∉ special) {s before after : List Char}
    {c : Char} (h : escape special s = before ++ c :: after) (hc : c = '"' ∨ c ∈ special) :
    Odd (backslashes before) := by
  induction s generalizing before with
  | nil => simp [escape] at h
  | cons d s ih =>
    have even := even_backslashes_escapeChar special d
    rw [escape, List.flatMap_cons] at h
    rcases List.append_eq_append_iff.1 h with ⟨more, rfl, hmore⟩ | ⟨more, hd, hmore⟩
    · exact (odd_backslashes_append even more).2 (ih hmore)
    · cases more with
      | nil =>
        rw [List.append_nil] at hd
        rw [← hd, ← List.append_nil (escapeChar special d)]
        have bare : Odd (backslashes []) := ih hmore.symm
        exact (odd_backslashes_append even []).2 bare
      | cons e more =>
        obtain ⟨rfl, -⟩ := List.cons.inj hmore
        exact odd_backslashes_of_escapeChar backslash hd hc

/-- What is written has no line breaks. -/
theorem not_mem_escape (s : List Char) :
    '\n' ∉ escape special s ∧ '\r' ∉ escape special s := by
  have char (d : Char) : '\n' ∉ escapeChar special d ∧ '\r' ∉ escapeChar special d := by
    unfold escapeChar
    split_ifs with quote <;> simp_all [eq_comm]
    rcases quote with rfl | rfl <;> decide
  simp only [escape, List.mem_flatMap, not_exists, not_and]
  exact ⟨fun d _ => (char d).1, fun d _ => (char d).2⟩

/-! ## Reading -/

/-- The character that stands behind a backslash for another one. -/
def escaped : Char → Char
  | 'n' => '\n'
  | 't' => '\t'
  | 'r' => '\r'
  | c => c

/-- Reads on from behind an opening quote up to the closing one: the text, and what follows it. -/
def readQuoted? : List Char → Option (List Char × List Char)
  | [] => none
  | '"' :: rest => some ([], rest)
  | '\\' :: c :: rest => (readQuoted? rest).map fun (s, after) => (escaped c :: s, after)
  | c :: rest => (readQuoted? rest).map fun (s, after) => (c :: s, after)

theorem readQuoted?_cons {c : Char} (quote : c ≠ '"') (backslash : c ≠ '\\') (rest : List Char) :
    readQuoted? (c :: rest) = (readQuoted? rest).map fun (s, after) => (c :: s, after) := by
  rw [readQuoted?]
  all_goals simp_all

theorem readQuoted?_escapeChar (letters : ∀ c ∈ special, escaped c = c) (c : Char)
    (rest : List Char) : readQuoted? (escapeChar special c ++ rest)
      = (readQuoted? rest).map fun (s, after) => (c :: s, after) := by
  unfold escapeChar
  split_ifs with quote lineFeed tab carriageReturn listed
  · rcases quote with rfl | rfl <;> rfl
  · rw [lineFeed]
    rfl
  · rw [tab]
    rfl
  · rw [carriageReturn]
    rfl
  · show (readQuoted? rest).map (fun (s, after) => (escaped c :: s, after)) = _
    rw [letters c (List.contains_iff_mem.1 listed)]
  · exact readQuoted?_cons (fun h => quote (Or.inr h)) (fun h => quote (Or.inl h)) rest

/-- **Escapes are undone**, up to the quote that was put behind them. -/
theorem readQuoted?_escape (letters : ∀ c ∈ special, escaped c = c) (s rest : List Char) :
    readQuoted? (escape special s ++ '"' :: rest) = some (s, rest) := by
  induction s with
  | nil => rfl
  | cons c s ih =>
    rw [escape, List.flatMap_cons, List.append_assoc, readQuoted?_escapeChar letters]
    rw [← escape, ih]
    rfl

end Text.Chars

/-! ## The dialects -/

namespace Dialect

/-- Whether a character starts an interpolation between double quotes. -/
def interpolates : Dialect → Char → Bool
  | .ruby, c => c == '#'
  | .perl, c => c == '$' || c == '@'
  | .cpp, _ | .python, _ => false

theorem mem_interpolation {d : Dialect} {c : Char} (h : d.interpolates c = true) :
    c ∈ d.interpolation := by
  cases d <;> simp_all [interpolates, interpolation]

/-- No letter that stands for a control character begins an interpolation. -/
theorem escaped_of_mem_interpolation (d : Dialect) :
    ∀ c ∈ d.interpolation, Text.Chars.escaped c = c := by
  cases d <;> simp [interpolation, Text.Chars.escaped]

/-- The text that a literal stands for. In C++ the empty text also has a name. -/
def readLiteral? (d : Dialect) (literal : String) : Option String :=
  if d = .cpp ∧ literal = "wxEmptyString" then some ""
  else
    match literal.toList with
    | '"' :: rest =>
      match Text.Chars.readQuoted? rest with
      | some (s, []) => some (String.ofList s)
      | _ => none
    | _ => none

/-- A literal for a text: it stays on its line, nothing between its quotes ends it or starts an
interpolation, and it stands for the text. -/
structure IsLiteral (d : Dialect) (s literal : String) : Prop where
  oneLine : '\n' ∉ literal.toList ∧ '\r' ∉ literal.toList
  guarded : ∀ before c after, literal.toList = '"' :: (before ++ c :: after) ++ ['"'] →
    (c = '"' ∨ d.interpolates c = true) → Odd (Text.Chars.backslashes before)
  read : d.readLiteral? literal = some s

theorem toList_quoted (d : Dialect) (s : String) :
    (d.quoted s).toList = '"' :: Text.Chars.escape d.interpolation s.toList ++ ['"'] := by
  simp [quoted, String.toList_append]

theorem isLiteral_quoted (d : Dialect) (s : String) : d.IsLiteral s (d.quoted s) := by
  have backslash : '\\' ∉ d.interpolation := by cases d <;> decide
  have named : d.quoted s ≠ "wxEmptyString" := by
    intro h
    have first := congrArg (fun s => s.toList.head?) h
    rw [toList_quoted] at first
    cases first
  obtain ⟨lineFeed, carriageReturn⟩ :=
    @Text.Chars.not_mem_escape d.interpolation s.toList
  refine ⟨?_, fun before c after h hc => ?_, ?_⟩
  · rw [toList_quoted]
    simp [lineFeed, carriageReturn]
  · rw [toList_quoted] at h
    have body := List.append_cancel_right (List.cons.inj h).2
    exact Text.Chars.odd_backslashes_of_escape backslash body (hc.imp_right mem_interpolation)
  · rw [readLiteral?, if_neg (fun h => named h.2), toList_quoted, List.cons_append]
    simp only [Text.Chars.readQuoted?_escape d.escaped_of_mem_interpolation, String.ofList_toList]

/-- **The literal of a text is read back as the text**, and nothing in it gets out of its quotes. -/
theorem isLiteral_textLiteral (d : Dialect) (s : String) : d.IsLiteral s (d.textLiteral s) := by
  unfold textLiteral
  cases d with
  | cpp =>
    by_cases empty : s = ""
    · rw [if_pos empty, empty]
      have unquoted : "wxEmptyString".toList.head? ≠ some '"' := by decide
      exact ⟨by decide, fun before c after h => absurd (congrArg List.head? h) unquoted, rfl⟩
    · rw [if_neg empty]
      exact isLiteral_quoted .cpp s
  | python | ruby | perl => exact isLiteral_quoted _ s

end Dialect

end FormDesign
