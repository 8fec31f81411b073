import FormDesign.Value
import Mathlib.Data.List.DropRight

/-!
# Values that are written and read again

Numbers and flags are read from the text of a property, and written into a resource as text again.
Whoever reads that text finds the same number and the same flags.

* `number_toString_number`: a number that is read from a text
* `Text.fields_join`, `fields_joinFlags`: flags with bars between
-/

namespace FormDesign

namespace Text

/-! ## Numerals -/

namespace Numeral

/-- Digits are read as the number that they stand for. -/
theorem digits?_eq_ofDigitChars (acc : Nat) {s : List Char} (h : ∀ c ∈ s, c.isDigit = true) :
    digits? acc s = some (Nat.ofDigitChars 10 s acc) := by
  induction s generalizing acc with
  | nil => rfl
  | cons c rest ih =>
    rw [List.forall_mem_cons] at h
    rw [digits?, if_pos h.1, ih _ h.2, Nat.ofDigitChars_cons]

theorem isDigit_of_mem_toDigits {n : Nat} {c : Char} (h : c ∈ Nat.toDigits 10 n) :
    c.isDigit = true :=
  Nat.isDigit_of_mem_toDigits (by decide) (by decide) h

theorem digits?_toDigits (n : Nat) : digits? 0 (Nat.toDigits 10 n) = some n := by
  rw [digits?_eq_ofDigitChars 0 fun c hc => isDigit_of_mem_toDigits hc,
    Nat.ofDigitChars_ten_toDigits]

/-- Without a sign a numeral is a run of digits. -/
theorem integer?_of_isDigit {c : Char} (h : c.isDigit = true) (rest : List Char) :
    integer? (c :: rest) = (digits? 0 (c :: rest)).map Int.ofNat := by
  have plus : c ≠ '+' := by
    rintro rfl
    cases h
  have minus : c ≠ '-' := by
    rintro rfl
    cases h
  unfold integer?
  split <;> simp_all

theorem exists_toDigits (n : Nat) :
    ∃ c rest, Nat.toDigits 10 n = c :: rest ∧ c.isDigit = true := by
  cases h : Nat.toDigits 10 n with
  | nil =>
    rw [Nat.toDigits_eq_if (by decide)] at h
    split at h <;> simp at h
  | cons c rest => exact ⟨c, rest, rfl, isDigit_of_mem_toDigits (h ▸ List.mem_cons_self)⟩

theorem toList_toString_ofNat (n : Nat) :
    (toString (Int.ofNat n)).toList = Nat.toDigits 10 n := by
  show (toString n).toList = _
  rw [Nat.toString_eq_ofList_toDigits, String.toList_ofList]

theorem toList_toString_negSucc (n : Nat) :
    (toString (Int.negSucc n)).toList = '-' :: Nat.toDigits 10 (n + 1) := by
  show ("-" ++ toString (n + 1)).toList = _
  rw [Nat.toString_eq_ofList_toDigits, String.toList_append, String.toList_ofList,
    String.toList_ofList]
  rfl

/-- A number is read from its numeral. -/
theorem integer?_toString (n : Int) : integer? (toString n).toList = some n := by
  cases n with
  | ofNat n =>
    obtain ⟨c, rest, hdigits, digit⟩ := exists_toDigits n
    rw [toList_toString_ofNat, hdigits, integer?_of_isDigit digit, ← hdigits, digits?_toDigits]
    rfl
  | negSucc n =>
    obtain ⟨c, rest, hdigits, -⟩ := exists_toDigits (n + 1)
    rw [toList_toString_negSucc, hdigits, integer?, ← hdigits, digits?_toDigits]
    · rfl
    · exact nofun

end Numeral

/-! ## Trimmed texts -/

namespace Chars

theorem dropEndWhile_concat_of_pos {p : Char → Bool} {c : Char} (h : p c = true) (s : List Char) :
    dropEndWhile p (s ++ [c]) = dropEndWhile p s :=
  List.rdropWhile_concat_pos p s c h

theorem dropWhile_eq_self_of_head? {p : Char → Bool} {s : List Char}
    (h : ∀ c ∈ s.head?, p c = false) : s.dropWhile p = s := by
  cases s with
  | nil => rfl
  | cons c rest => exact List.dropWhile_cons_of_neg (Bool.eq_false_iff.1 (h c rfl))

theorem dropEndWhile_eq_self_of_getLast? {p : Char → Bool} {s : List Char}
    (h : ∀ c ∈ s.getLast?, p c = false) : dropEndWhile p s = s := by
  rw [← List.head?_reverse] at h
  rw [dropEndWhile, dropWhile_eq_self_of_head? h, List.reverse_reverse]

theorem trimStart_eq_self {s : List Char} (h : ∀ c ∈ s.head?, isBlank c = false) :
    trimStart s = s :=
  dropWhile_eq_self_of_head? h

theorem trimEnd_eq_self {s : List Char} (h : ∀ c ∈ s.getLast?, isBlank c = false) :
    trimEnd s = s :=
  dropEndWhile_eq_self_of_getLast? h

theorem head?_trimStart (s : List Char) : ∀ c ∈ (trimStart s).head?, isBlank c = false := by
  intro c hc
  have first := List.head?_dropWhile_not isBlank s
  rw [show s.dropWhile isBlank = trimStart s from rfl, hc] at first
  simpa using first

theorem getLast?_trimEnd (s : List Char) : ∀ c ∈ (trimEnd s).getLast?, isBlank c = false := by
  unfold trimEnd dropEndWhile
  rw [List.getLast?_reverse]
  exact head?_trimStart s.reverse

/-- A text without blanks at its ends stays as it is. -/
theorem trim_eq_self {s : List Char} (first : ∀ c ∈ s.head?, isBlank c = false)
    (last : ∀ c ∈ s.getLast?, isBlank c = false) : trim s = s := by
  rw [trim, trimStart_eq_self first, trimEnd_eq_self last]

theorem head?_trim (s : List Char) : ∀ c ∈ (trim s).head?, isBlank c = false := by
  intro c hc
  have kept : trim s <+: trimStart s := List.rdropWhile_prefix isBlank _
  obtain ⟨rest, hrest⟩ := kept
  refine head?_trimStart s c ?_
  rw [← hrest, List.head?_append, hc]
  rfl

theorem trim_trim (s : List Char) : trim (trim s) = trim s :=
  trim_eq_self (head?_trim s) (getLast?_trimEnd _)

theorem trim_eq_nil_iff {s : List Char} : trim s = [] ↔ ∀ c ∈ s, isBlank c = true := by
  constructor
  · intro none
    have start : trimStart s = [] := by
      cases h : trimStart s with
      | nil => rfl
      | cons c rest =>
        -- what is left begins with a solid character, which no trimming takes away
        have solid : isBlank c = false := head?_trimStart s c (by rw [h]; rfl)
        have blank := List.rdropWhile_eq_nil_iff.1 none c (by rw [h]; exact List.mem_cons_self)
        rw [solid] at blank
        cases blank
    exact List.dropWhile_eq_nil_iff.1 start
  · intro blank
    have start : trimStart s = [] := List.dropWhile_eq_nil_iff.2 blank
    rw [trim, start]
    rfl

theorem mem_of_mem_trim {s : List Char} {c : Char} (h : c ∈ trim s) : c ∈ s :=
  (List.dropWhile_suffix isBlank).subset
    (List.IsPrefix.subset (List.rdropWhile_prefix isBlank (trimStart s)) h)

end Chars

theorem trim_trim (s : String) : trim (trim s) = trim s := by
  unfold trim
  rw [String.toList_ofList, Chars.trim_trim]

theorem trim_eq_empty_iff {s : String} : trim s = "" ↔ ∀ c ∈ s.toList, isBlank c = true := by
  rw [← Chars.trim_eq_nil_iff, trim, ← String.toList_inj, String.toList_ofList]
  rfl

theorem isBlank_of_isDigit {c : Char} (h : c.isDigit = true) : isBlank c = false := by
  have range : 48 ≤ c.toNat ∧ c.toNat ≤ 57 := Char.isDigit_iff_toNat.1 h
  simp [isBlank]
  omega

/-- A number is written without blanks. -/
theorem trim_toString (n : Int) : trim (toString n) = toString n := by
  have chars : ∀ c ∈ (toString n).toList, isBlank c = false := by
    cases n with
    | ofNat n =>
      rw [Numeral.toList_toString_ofNat]
      exact fun c hc => isBlank_of_isDigit (Numeral.isDigit_of_mem_toDigits hc)
    | negSucc n =>
      rw [Numeral.toList_toString_negSucc]
      exact List.forall_mem_cons.2
        ⟨rfl, fun c hc => isBlank_of_isDigit (Numeral.isDigit_of_mem_toDigits hc)⟩
  unfold trim
  rw [Chars.trim_eq_self (fun c hc => chars c (List.mem_of_mem_head? hc))
    fun c hc => chars c (List.mem_of_mem_getLast? hc), String.ofList_toList]

/-! ## Fields -/

namespace Chars

theorem splitOn_eq (sep : Char) (s : List Char) : splitOn sep s = s.splitOn sep := by
  induction s with
  | nil => rfl
  | cons c rest ih =>
    unfold List.splitOn at ih ⊢
    rw [List.splitOnP_cons_eq_if_modifyHead, splitOn, ih]
    by_cases h : c = sep
    · rw [if_pos h, if_pos (beq_iff_eq.2 h)]
    · rw [if_neg h, if_neg (by simpa using h)]
      cases hp : rest.splitOnP (· == sep) with
      | nil => exact absurd hp (List.splitOnP_ne_nil _ _)
      | cons piece pieces => rfl

/-- No piece has the separator in it. -/
theorem not_mem_of_mem_splitOn {sep : Char} {s piece : List Char} (h : piece ∈ splitOn sep s) :
    sep ∉ piece := by
  induction s generalizing piece with
  | nil =>
    rw [splitOn, List.mem_singleton] at h
    rw [h]
    exact List.not_mem_nil
  | cons c rest ih =>
    rw [splitOn] at h
    by_cases hc : c = sep
    · rw [if_pos hc] at h
      rcases List.mem_cons.1 h with rfl | h
      · exact List.not_mem_nil
      · exact ih h
    · rw [if_neg hc] at h
      cases hp : splitOn sep rest with
      | nil => exact absurd hp (splitOn_ne_nil sep rest)
      | cons first pieces =>
        rw [hp] at h ih
        rcases List.mem_cons.1 h with rfl | h
        · exact List.not_mem_cons_of_ne_of_not_mem (Ne.symm hc) (ih List.mem_cons_self)
        · exact ih (List.mem_cons_of_mem _ h)

end Chars

/-- What holds of all the texts, and is kept where the separator comes between two, holds of the
joined text. -/
theorem join_induction {P : List Char → Prop} {sep : String} {texts : List String} (nil : P [])
    (each : ∀ text ∈ texts, P text.toList)
    (step : ∀ a b, P a → P b → P (a ++ sep.toList ++ b)) : P (join sep texts).toList := by
  unfold join
  induction texts with
  | nil => exact nil
  | cons text rest ih =>
    rw [List.forall_mem_cons] at each
    cases rest with
    | nil => simpa using each.1
    | cons next rest =>
      rw [String.intercalate_cons_cons, String.toList_append, String.toList_append]
      exact step _ _ each.1 (ih each.2)

theorem forall_mem_join {P : Char → Prop} {sep : String} {texts : List String}
    (between : ∀ c ∈ sep.toList, P c) (each : ∀ text ∈ texts, ∀ c ∈ text.toList, P c) :
    ∀ c ∈ (join sep texts).toList, P c := by
  refine join_induction (P := fun s => ∀ c ∈ s, P c) (List.forall_mem_nil _) each
    fun a b ha hb => ?_
  exact List.forall_mem_append.2 ⟨List.forall_mem_append.2 ⟨ha, between⟩, hb⟩

/-- A text that can stand between separators and be found there again. -/
structure IsField (sep : Char) (s : String) : Prop where
  ne_empty : s ≠ ""
  trim_eq : trim s = s
  notMem : sep ∉ s.toList

theorem isField_of_mem_fields {sep : Char} {s piece : String} (h : piece ∈ fields sep s) :
    IsField sep piece := by
  obtain ⟨hmem, hne⟩ := List.mem_filter.1 h
  obtain ⟨raw, hraw, rfl⟩ := List.mem_map.1 hmem
  obtain ⟨chars, hchars, rfl⟩ := List.mem_map.1 hraw
  refine ⟨by simpa using hne, trim_trim _, fun hsep => ?_⟩
  unfold trim at hsep
  rw [String.toList_ofList, String.toList_ofList] at hsep
  exact Chars.not_mem_of_mem_splitOn hchars (Chars.mem_of_mem_trim hsep)

/-- Texts with separators between them are the pieces of that text. -/
theorem splitOn_join {sep : Char} {texts : List String} (inhabited : texts ≠ [])
    (h : ∀ s ∈ texts, sep ∉ s.toList) :
    splitOn sep (join (String.singleton sep) texts) = texts := by
  have split : (join (String.singleton sep) texts).toList.splitOn sep
      = texts.map String.toList := by
    rw [join, String.toList_intercalate, String.toList_singleton]
    exact List.splitOn_intercalate sep (List.forall_mem_map.2 h) (by simpa using inhabited)
  rw [splitOn, Chars.splitOn_eq, split, List.map_map]
  exact (List.map_congr_left fun s _ => String.ofList_toList).trans (List.map_id texts)

/-- Texts with separators between them are the fields of that text. -/
theorem fields_join {sep : Char} {texts : List String} (h : ∀ s ∈ texts, IsField sep s) :
    fields sep (join (String.singleton sep) texts) = texts := by
  unfold fields
  by_cases hne : texts = []
  · rw [hne]
    rfl
  · rw [splitOn_join hne fun s hs => (h s hs).notMem,
      (List.map_congr_left fun s hs => (h s hs).trim_eq).trans (List.map_id' texts)]
    exact List.filter_eq_self.2 fun s hs => by simpa using (h s hs).ne_empty

/-- Blanks have no fields. -/
theorem fields_of_blank {sep : Char} {s : String} (solid : isBlank sep = false)
    (blank : ∀ c ∈ s.toList, isBlank c = true) : fields sep s = [] := by
  have whole : splitOn sep s = [s] := by
    have single : splitOn sep (join (String.singleton sep) [s]) = [s] := by
      refine splitOn_join (List.cons_ne_nil _ _) (List.forall_mem_singleton.2 fun hsep => ?_)
      rw [blank sep hsep] at solid
      cases solid
    rwa [join, String.intercalate_singleton] at single
  rw [fields, whole, List.map_singleton, trim_eq_empty_iff.2 blank]
  rfl

/-- The pieces of a text with separators between them are the text. -/
theorem join_splitOn (sep : Char) (s : String) :
    join (String.singleton sep) (splitOn sep s) = s := by
  have pieces : (splitOn sep s).map String.toList = s.toList.splitOn sep := by
    rw [splitOn, Chars.splitOn_eq, List.map_map]
    exact (List.map_congr_left fun _ _ => String.toList_ofList).trans (List.map_id _)
  rw [← String.toList_inj, join, String.toList_intercalate, pieces, String.toList_singleton,
    List.intercalate_splitOn]

theorem notMem_of_mem_splitOn {sep : Char} {s piece : String} (h : piece ∈ splitOn sep s) :
    sep ∉ piece.toList := by
  obtain ⟨chars, hchars, rfl⟩ := List.mem_map.1 h
  rw [String.toList_ofList]
  exact Chars.not_mem_of_mem_splitOn hchars

theorem splitOn_append (sep : Char) (s t : String) :
    splitOn sep (s ++ String.singleton sep ++ t) = splitOn sep s ++ splitOn sep t := by
  have parts : (s ++ String.singleton sep ++ t).toList = s.toList ++ sep :: t.toList := by
    simp [String.toList_append]
  have cut : (s.toList ++ sep :: t.toList).splitOn sep
      = s.toList.splitOn sep ++ t.toList.splitOn sep :=
    List.splitOnP_append_cons _ _ (beq_self_eq_true sep)
  rw [splitOn, splitOn, splitOn, parts, Chars.splitOn_eq, Chars.splitOn_eq, Chars.splitOn_eq, cut,
    List.map_append]

/-- The fields of texts with separators between them are the fields of the texts. -/
theorem fields_join_eq_flatMap (sep : Char) (texts : List String) :
    fields sep (join (String.singleton sep) texts) = texts.flatMap (fields sep) := by
  unfold join
  induction texts with
  | nil => rfl
  | cons text rest ih =>
    cases rest with
    | nil => simp
    | cons next rest =>
      rw [String.intercalate_cons_cons, List.flatMap_cons, ← ih, fields, splitOn_append,
        List.map_append, List.filter_append]
      rfl

end Text

/-! ## Numbers and flags of properties -/

namespace Text.Numeral

/-- What was read as a word fits into it. -/
theorem fits_of_bind {bits : Nat} {read : Option Int} {n : Int}
    (h : read.bind (fits bits) = some n) :
    fits bits n = some n := by
  obtain ⟨m, -, hfits⟩ := Option.bind_eq_some_iff.1 h
  have same : m = n := by
    unfold fits at hfits
    split at hfits
    · exact Option.some.inj hfits
    · cases hfits
  rwa [same] at hfits

end Text.Numeral

open Text.Numeral in
/-- A number that is read from a text is read again from its numeral. -/
theorem number_toString_number (text : String) : number (toString (number text)) = number text := by
  have fitting : fits 64 (number text) = some (number text) := by
    cases h : number? text with
    | none =>
      rw [number, h]
      rfl
    | some n =>
      rw [number, h, Option.getD_some]
      rw [number?, int64?, word?, Option.bind_eq_bind] at h
      exact fits_of_bind h
  rw [number, number?, Text.trim_toString, int64?, word?, integer?_toString, Option.bind_eq_bind,
    Option.bind_some, fitting, Option.getD_some]

/-- The flags of the joined text are those of the texts. -/
theorem fields_joinFlags (texts : List String) :
    Text.fields '|' (joinFlags texts) = texts.flatMap (Text.fields '|') := by
  refine Text.fields_join fun s hs => ?_
  obtain ⟨text, -, hs⟩ := List.mem_flatMap.1 hs
  exact Text.isField_of_mem_fields hs

end FormDesign
