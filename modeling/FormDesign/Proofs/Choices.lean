import FormDesign.Proofs.Value

/-!
# Lists of choices that are read back

A list of choices is written with each item between quotes, or with semicolons between the items.
Between quotes an item may hold anything, since its quotes and backslashes have a backslash in
front; what stands around the quotes does not count. Without quotes the items are trimmed, and those
that are empty are lost.

* `Text.Chars.quotedText_flatMap`: an item is read up to its closing quote
* `Text.QuotedList`: items between quotes, with blanks around them
* `choices_written`: the items that are read are those that were written
-/

namespace FormDesign

namespace Text

/-! ## Items between quotes -/

namespace Chars

/-- How a character of an item is written between quotes. -/
def quotedChar (c : Char) : List Char :=
  if c = '"' ∨ c = '\\' then ['\\', c] else [c]

/-- An item between quotes. -/
def quotedItem (item : List Char) : List Char :=
  '"' :: (item.flatMap quotedChar ++ ['"'])

theorem quotedText_cons {c : Char} (other : c ≠ '\\') (text rest : List Char) :
    quotedText text (c :: rest)
      = if c = '"' then text.reverse :: unquoted rest else quotedText (c :: text) rest :=
  quotedText.eq_4 text c rest (fun hc => absurd hc other) fun _ _ hc => absurd hc other

theorem quotedText_quotedChar (text : List Char) (c : Char) (rest : List Char) :
    quotedText text (quotedChar c ++ rest) = quotedText (c :: text) rest := by
  by_cases h : c = '"' ∨ c = '\\'
  · rw [quotedChar, if_pos h, List.cons_append, List.singleton_append, quotedText.eq_3]
  · rw [quotedChar, if_neg h, List.singleton_append]
    rw [not_or] at h
    rw [quotedText_cons h.2, if_neg h.1]

/-- An item is read up to its closing quote, whatever of it was read before. -/
theorem quotedText_flatMap (text item rest : List Char) :
    quotedText text (item.flatMap quotedChar ++ '"' :: rest)
      = (text.reverse ++ item) :: unquoted rest := by
  induction item generalizing text with
  | nil =>
    rw [List.flatMap_nil, List.nil_append, quotedText_cons (by decide), if_pos rfl,
      List.append_nil]
  | cons c item ih =>
    rw [List.flatMap_cons, List.append_assoc, quotedText_quotedChar, ih, List.reverse_cons,
      List.append_assoc, List.singleton_append]

theorem unquoted_quotedItem (item rest : List Char) :
    unquoted (quotedItem item ++ rest) = item :: unquoted rest := by
  rw [quotedItem, List.cons_append, List.append_assoc, unquoted, if_pos rfl]
  exact quotedText_flatMap [] item rest

theorem unquoted_of_isBlank {c : Char} (blank : isBlank c = true) (rest : List Char) :
    unquoted (c :: rest) = unquoted rest := by
  have other : c ≠ '"' := by
    rintro rfl
    cases blank
  rw [unquoted, if_neg other]

end Chars

/-- An item between quotes, with a backslash before each of its quotes and backslashes. -/
def quotedItem (item : String) : String :=
  String.ofList (Chars.quotedItem item.toList)

/-- Items between quotes, with any blanks before, between and behind them. -/
inductive QuotedList : List String → List Char → Prop
  | nil : QuotedList [] []
  | blank {items : List String} {c : Char} {s : List Char} (blank : isBlank c = true)
      (rest : QuotedList items s) : QuotedList items (c :: s)
  | item {items : List String} {s : List Char} (item : String) (rest : QuotedList items s) :
      QuotedList (item :: items) ((quotedItem item).toList ++ s)

variable {items : List String} {s : List Char}

theorem QuotedList.unquoted_eq (h : QuotedList items s) :
    (Chars.unquoted s).map String.ofList = items := by
  induction h with
  | nil => rfl
  | blank blank _ ih => rw [Chars.unquoted_of_isBlank blank, ih]
  | item item _ ih =>
    rw [quotedItem, String.toList_ofList, Chars.unquoted_quotedItem, List.map_cons, ih,
      String.ofList_toList]

/-- Without a quote there are no items, and nothing but blanks. -/
theorem QuotedList.of_not_mem (h : QuotedList items s) (bare : '"' ∉ s) :
    items = [] ∧ ∀ c ∈ s, isBlank c = true := by
  induction h with
  | nil => exact ⟨rfl, List.forall_mem_nil _⟩
  | blank blank _ ih =>
    obtain ⟨none, rest⟩ := ih fun hm => bare (List.mem_cons_of_mem _ hm)
    exact ⟨none, List.forall_mem_cons.2 ⟨blank, rest⟩⟩
  | item item _ _ =>
    rw [quotedItem, String.toList_ofList] at bare
    exact absurd List.mem_cons_self bare

theorem QuotedList.blanks {gap : List Char} (blank : ∀ c ∈ gap, isBlank c = true)
    (h : QuotedList items s) : QuotedList items (gap ++ s) := by
  induction gap with
  | nil => exact h
  | cons c gap ih =>
    rw [List.forall_mem_cons] at blank
    exact .blank blank.1 (ih blank.2)

/-- Items between quotes that are joined with white space. -/
theorem quotedList_join {sep : String} (blank : ∀ c ∈ sep.toList, isBlank c = true)
    (items : List String) : QuotedList items (join sep (items.map quotedItem)).toList := by
  unfold join
  induction items with
  | nil => exact .nil
  | cons item rest ih =>
    cases rest with
    | nil =>
      have single := QuotedList.item item .nil
      rwa [List.append_nil] at single
    | cons next rest =>
      rw [List.map_cons, List.map_cons, String.intercalate_cons_cons, String.toList_append,
        String.toList_append, List.append_assoc]
      exact .item item (ih.blanks blank)

end Text

/-! ## Choices -/

open Text

theorem choices_of_quotedList {items : List String} {text : String}
    (h : QuotedList items text.toList) : choices text = items := by
  unfold choices
  split
  · exact h.unquoted_eq
  · next bare =>
    obtain ⟨rfl, blank⟩ := h.of_not_mem fun hm => bare (List.contains_iff_mem.2 hm)
    exact fields_of_blank (by decide) blank

/-- Texts without quotes are read as fields. -/
theorem choices_eq_fields {text : String} (bare : '"' ∉ text.toList) :
    choices text = fields ';' text :=
  if_neg fun hm => bare (List.contains_iff_mem.1 hm)

/-- **A list of choices is read back**: from items between quotes with blanks around them, as they
come when the items are joined with white space, and from items with semicolons between, if they are
trimmed and hold no quotes. -/
theorem choices_written (items : List String) :
    (∀ text : String, QuotedList items text.toList → choices text = items) ∧
    (∀ sep : String, (∀ c ∈ sep.toList, isBlank c = true) →
      choices (join sep (items.map quotedItem)) = items) ∧
    ((∀ item ∈ items, IsField ';' item ∧ '"' ∉ item.toList) →
      choices (join ";" items) = items) := by
  refine ⟨fun text h => choices_of_quotedList h, fun sep blank => ?_, fun each => ?_⟩
  · exact choices_of_quotedList (quotedList_join blank items)
  · have bare : ∀ c ∈ (join ";" items).toList, c ≠ '"' := by
      refine forall_mem_join (List.forall_mem_singleton.2 (by decide)) fun item hitem c hc => ?_
      rintro rfl
      exact (each item hitem).2 hc
    rw [choices_eq_fields fun hm => bare _ hm rfl]
    exact fields_join fun item hitem => (each item hitem).1

/-- Items with quotes, a backslash and a semicolon, and an empty one. -/
def shelfItems : List String := ["one", "two \"2\"", "", "a\\b;c"]

def shelfText : String := "\"one\"\t \"two \\\"2\\\"\"\t \"\"\t \"a\\\\b;c\""

def colourItems : List String := ["red", "dark green"]

theorem choices_shelf :
    (∀ c ∈ "\t ".toList, isBlank c = true) ∧
    (∀ item ∈ colourItems, IsField ';' item ∧ '"' ∉ item.toList) ∧
    choices shelfText = shelfItems ∧ choices "red;dark green" = colourItems := by
  have blank : ∀ c ∈ "\t ".toList, isBlank c = true :=
    List.all_eq_true.1 (by decide)
  have text : join "\t " (shelfItems.map quotedItem) = shelfText := by decide
  have plain : ∀ item ∈ colourItems, IsField ';' item ∧ '"' ∉ item.toList :=
    List.forall_mem_cons.2 ⟨⟨⟨by decide, by decide, by decide⟩, by decide⟩,
      List.forall_mem_singleton.2 ⟨⟨by decide, by decide, by decide⟩, by decide⟩⟩
  refine ⟨blank, plain, ?_, (choices_written colourItems).2.2 plain⟩
  rw [← text]
  exact (choices_written shelfItems).2.1 "\t " blank

end FormDesign
