import FormDesign.Image.Description
import FormDesign.Proofs.Value

/-!
# Descriptions that are read back

A description is a kind and a path with a semicolon between, and possibly a size in brackets. The
reader trims the fields, takes a size that it cannot read for none, and does not look past the third
field; so many texts stand for one description, but what is read from any of them can be written
down and read again.

* `ImageDescription.size?_print`: a size is read back
* `ImageDescription.parse_eq_ok_iff`: what is read from the fields of a text
* `ImageDescription.parse_exact`: which texts are descriptions, and of what
-/

namespace FormDesign

open Text

/-! ## Sizes -/

namespace Text

/-- The numbers of a signed word of 32 bits. -/
def IsInt32 (n : Int) : Prop :=
  -2147483648 ≤ n ∧ n < 2147483648

theorem Numeral.int32?_toString {n : Int} (h : IsInt32 n) : int32? (toString n) = some n := by
  rw [int32?, word?, integer?_toString]
  exact if_pos h

theorem Numeral.isInt32_of_int32? {s : String} {n : Int} (h : int32? s = some n) : IsInt32 n := by
  rw [int32?, word?, Option.bind_eq_bind] at h
  have fitting := fits_of_bind h
  unfold fits at fitting
  split at fitting
  · assumption
  · cases fitting

/-- A number is written with digits and a sign. -/
theorem Numeral.notMem_toString {c : Char} (mark : c.isDigit = false) (sign : c ≠ '-') (n : Int) :
    c ∉ (toString n).toList := by
  have digits {m : Nat} : c ∉ Nat.toDigits 10 m := by
    intro h
    rw [isDigit_of_mem_toDigits h] at mark
    cases mark
  cases n with
  | ofNat n =>
    rw [toList_toString_ofNat]
    exact digits
  | negSucc n =>
    rw [toList_toString_negSucc]
    exact List.not_mem_cons_of_ne_of_not_mem sign digits

theorem Chars.cutAt?_append {sep : Char} {before : List Char} (h : sep ∉ before)
    (after : List Char) : cutAt? sep (before ++ sep :: after) = some (before, after) := by
  induction before with
  | nil => exact if_pos rfl
  | cons c before ih =>
    rw [List.mem_cons, not_or] at h
    rw [List.cons_append, cutAt?, if_neg (Ne.symm h.1), ih h.2]
    rfl

end Text

namespace ImageDescription

/-- The text of a size. -/
def printSize (width height : Int) : String :=
  "[" ++ toString width ++ "," ++ toString height ++ "]"

/-- A size without its brackets. -/
def bareSize (w h : Int) : List Char :=
  (toString w).toList ++ ',' :: (toString h).toList

theorem toList_printSize (w h : Int) : (printSize w h).toList = '[' :: (bareSize w h ++ [']']) := by
  simp [printSize, bareSize, String.toList_append]

theorem notMem_bareSize {c : Char} (mark : c.isDigit = false) (sign : c ≠ '-') (comma : c ≠ ',')
    (w h : Int) : c ∉ bareSize w h := by
  rw [bareSize, List.mem_append, List.mem_cons, not_or, not_or]
  exact ⟨Numeral.notMem_toString mark sign w, comma, Numeral.notMem_toString mark sign h⟩

theorem isField_printSize (w h : Int) : IsField ';' (printSize w h) := by
  refine ⟨fun empty => ?_, ?_, ?_⟩
  · have none := congrArg String.toList empty
    rw [toList_printSize] at none
    cases none
  · rw [trim, toList_printSize, Chars.trim_eq_self, ← toList_printSize, String.ofList_toList]
    · rintro c ⟨⟩
      rfl
    · rw [← List.cons_append, List.getLast?_concat]
      rintro c ⟨⟩
      rfl
  · rw [toList_printSize, List.mem_cons, List.mem_append, List.mem_singleton]
    simp [notMem_bareSize (c := ';') rfl (by decide) (by decide)]

/-- A size is read back, brackets and all. -/
theorem size?_printSize {w h : Int} (hw : IsInt32 w) (hh : IsInt32 h) :
    size? (printSize w h) = some (w, h) := by
  -- no other bracket stands next to those around the numbers
  have front : (bareSize w h ++ [']']).dropWhile (· == '[') = bareSize w h ++ [']'] := by
    refine Chars.dropWhile_eq_self_of_head? fun c hc => beq_false_of_ne ?_
    rintro rfl
    rcases List.mem_append.1 (List.mem_of_mem_head? hc) with hm | hm
    · exact notMem_bareSize rfl (by decide) (by decide) w h hm
    · exact absurd hm (by decide)
  have back : Chars.dropEndWhile (· == ']') (bareSize w h ++ [']']) = bareSize w h := by
    rw [Chars.dropEndWhile_concat_of_pos (by decide)]
    refine Chars.dropEndWhile_eq_self_of_getLast? fun c hc => beq_false_of_ne ?_
    rintro rfl
    exact notMem_bareSize rfl (by decide) (by decide) w h (List.mem_of_mem_getLast? hc)
  have inner : dropEndWhile (· == ']') (dropWhile (· == '[') (printSize w h))
      = String.ofList (bareSize w h) := by
    rw [dropEndWhile, dropWhile, String.toList_ofList, toList_printSize,
      List.dropWhile_cons_of_pos (by decide), front, back]
  have parts : cutAt? ',' (String.ofList (bareSize w h)) = some (toString w, toString h) := by
    rw [cutAt?, String.toList_ofList, bareSize,
      Chars.cutAt?_append (Numeral.notMem_toString rfl (by decide) w), Option.map_some]
    simp only [String.ofList_toList]
  simp only [size?, inner, parts, trim_toString, Numeral.int32?_toString hw,
    Numeral.int32?_toString hh]

theorem isInt32_of_size? {text : String} {w h : Int} (read : size? text = some (w, h)) :
    IsInt32 w ∧ IsInt32 h := by
  unfold size? at read
  dsimp only at read
  split at read
  · cases read
  · split at read
    · next hw hh =>
      obtain ⟨rfl, rfl⟩ := Prod.mk.inj (Option.some.inj read)
      exact ⟨Numeral.isInt32_of_int32? hw, Numeral.isInt32_of_int32? hh⟩
    · cases read

end ImageDescription

/-! ## Kinds -/

namespace ImageKind

theorem ofName?_name (kind : ImageKind) : ofName? kind.name = some kind := by
  cases kind <;> rfl

theorem name_of_ofName? {word : String} {kind : ImageKind} (h : ofName? word = some kind) :
    word = kind.name := by
  have found := List.find?_some (p := fun k : ImageKind => k.name == word) h
  exact (beq_iff_eq.1 found).symm

/-- The words that stand for a kind. -/
def words : List String := ["Embed", "Art", "XPM", "Header", "SVG"]

theorem mem_words_iff {word : String} : word ∈ words ↔ ∃ kind : ImageKind, word = kind.name := by
  have names : words = all.map name := rfl
  have listed (kind : ImageKind) : kind ∈ all := by cases kind <;> decide
  rw [names, List.mem_map]
  constructor
  · rintro ⟨kind, -, rfl⟩
    exact ⟨kind, rfl⟩
  · rintro ⟨kind, rfl⟩
    exact ⟨kind, listed kind, rfl⟩

end ImageKind

namespace ImageDescription

variable {d : ImageDescription} {text : String}

/-! ## Fields -/

theorem ofFields_eq_ok_iff {fields : List String} : ofFields fields = .ok d ↔
    ∃ more, fields = d.kind.name :: d.path :: more ∧ d.path ≠ "" ∧
      d.size = more.head?.bind size? := by
  constructor
  · intro h
    unfold ofFields at h
    split at h
    · cases h
    · split at h
      · cases h
      · next kind known =>
        split at h
        · cases h
        · next path more =>
          split at h
          · cases h
          · next inhabited =>
            cases h
            exact ⟨more, by rw [ImageKind.name_of_ofName? known], inhabited, rfl⟩
  · rintro ⟨more, rfl, inhabited, size⟩
    obtain ⟨kind, path, _⟩ := d
    dsimp only at inhabited size
    simp only [ofFields, ImageKind.ofName?_name, if_neg inhabited, size]
    rfl

/-- What a text says is in its first two fields, and if it has a third one, there may be a size in
it. -/
theorem parse_eq_ok_iff : parse text = .ok d ↔
    ∃ word path more, splitOn ';' text = word :: path :: more ∧ trim word = d.kind.name ∧
      trim path = d.path ∧ d.path ≠ "" ∧ d.size = (more.map trim).head?.bind size? := by
  rw [parse, ofFields_eq_ok_iff]
  constructor
  · rintro ⟨more, fields, inhabited, size⟩
    obtain ⟨word, others, hsplit, hword, hothers⟩ := List.map_eq_cons_iff.1 fields
    obtain ⟨path, rest, rfl, hpath, rfl⟩ := List.map_eq_cons_iff.1 hothers
    exact ⟨word, path, rest, hsplit, hword, hpath, inhabited, size⟩
  · rintro ⟨word, path, rest, hsplit, hword, hpath, inhabited, size⟩
    refine ⟨rest.map trim, ?_, inhabited, size⟩
    rw [hsplit, List.map_cons, List.map_cons, hword, hpath]

/-- A third field is read as a size, and what follows it does not count. -/
theorem parse_append (h : parse text = .ok d) (size more : String) :
    ∃ read, parse (text ++ ";" ++ size) = .ok { d with size := read } ∧
      parse (text ++ ";" ++ size ++ ";" ++ more) = .ok { d with size := read } := by
  obtain ⟨word, path, rest, hsplit, hword, hpath, inhabited, -⟩ := parse_eq_ok_iff.1 h
  have longer (t : String) :
      splitOn ';' (text ++ ";" ++ t) = word :: path :: (rest ++ splitOn ';' t) := by
    rw [show text ++ ";" ++ t = text ++ String.singleton ';' ++ t from rfl, splitOn_append, hsplit]
    rfl
  have same : ((rest ++ splitOn ';' (size ++ ";" ++ more)).map trim).head?
      = ((rest ++ splitOn ';' size).map trim).head? := by
    rw [show size ++ ";" ++ more = size ++ String.singleton ';' ++ more from rfl, splitOn_append]
    cases rest with
    | nil =>
      cases hs : splitOn ';' size with
      | nil => exact absurd hs (splitOn_ne_nil ';' size)
      | cons => rfl
    | cons => rfl
  refine ⟨((rest ++ splitOn ';' size).map trim).head?.bind size?,
    parse_eq_ok_iff.2 ⟨word, path, _, longer size, hword, hpath, inhabited, rfl⟩,
    parse_eq_ok_iff.2 ⟨word, path, rest ++ splitOn ';' (size ++ ";" ++ more), ?_, hword, hpath,
      inhabited, ?_⟩⟩
  · rw [← longer (size ++ ";" ++ more), ← String.append_assoc, ← String.append_assoc]
  · rw [same]

/-! ## Printing -/

/-- The text of a description: its kind and its path, and its size if there is one. -/
def print (d : ImageDescription) : String :=
  d.kind.name ++ ";" ++ d.path ++
    match d.size with
    | none => ""
    | some (width, height) => ";" ++ printSize width height

/-- What a description can be: its path is trimmed, and its size fits words of 32 bits. -/
structure WellFormed (d : ImageDescription) : Prop where
  path : IsField ';' d.path
  size : ∀ width height, d.size = some (width, height) → IsInt32 width ∧ IsInt32 height

/-- The fields after the path: one for the size, if there is one. -/
def sizeFields (d : ImageDescription) : List String :=
  (d.size.map fun size => printSize size.1 size.2).toList

theorem print_eq_join (d : ImageDescription) :
    d.print = join ";" (d.kind.name :: d.path :: d.sizeFields) := by
  obtain ⟨kind, path, size⟩ := d
  cases size with
  | none => simp [print, sizeFields, join]
  | some size => simp [print, sizeFields, join, String.append_assoc]

theorem isField_name (kind : ImageKind) : IsField ';' kind.name := by
  cases kind <;> exact ⟨by decide, by decide, by decide⟩

/-- A description is read back from its text. -/
theorem parse_print (h : d.WellFormed) : parse d.print = .ok d := by
  refine parse_eq_ok_iff.2 ⟨d.kind.name, d.path, d.sizeFields, ?_, (isField_name d.kind).trim_eq,
    h.path.trim_eq, h.path.ne_empty, ?_⟩
  · rw [print_eq_join]
    refine splitOn_join (List.cons_ne_nil _ _)
      (List.forall_mem_cons.2 ⟨(isField_name d.kind).notMem,
        List.forall_mem_cons.2 ⟨h.path.notMem, fun field hfield => ?_⟩⟩)
    obtain ⟨size, -, rfl⟩ := Option.map_eq_some_iff.1 (Option.mem_toList.1 hfield)
    exact (isField_printSize size.1 size.2).notMem
  · unfold sizeFields
    cases hsize : d.size with
    | none => rfl
    | some size =>
      obtain ⟨hw, hh⟩ := h.size size.1 size.2 hsize
      rw [Option.map_some, Option.toList_some, List.map_singleton, List.head?_cons,
        Option.bind_some, (isField_printSize size.1 size.2).trim_eq, size?_printSize hw hh]

/-- What is read can be written down. -/
theorem wellFormed_of_parse (h : parse text = .ok d) : d.WellFormed := by
  obtain ⟨word, path, more, hsplit, -, hpath, inhabited, hsize⟩ := parse_eq_ok_iff.1 h
  constructor
  · have piece : path ∈ splitOn ';' text := by
      rw [hsplit]
      exact List.mem_cons_of_mem _ List.mem_cons_self
    have trimmed : d.path ∈ (splitOn ';' text).map trim := List.mem_map.2 ⟨path, piece, hpath⟩
    refine isField_of_mem_fields (s := text) (List.mem_filter.2 ⟨trimmed, ?_⟩)
    simpa using inhabited
  · intro width height size
    rw [hsize] at size
    obtain ⟨third, -, read⟩ := Option.bind_eq_some_iff.1 size
    exact isInt32_of_size? read

/-! ## Descriptions -/

/-- The texts whose first field is the word of a kind, and whose second field is there and is not
blank. -/
def IsDescription (text : String) : Prop :=
  ∃ word path more, text = join ";" (word :: path :: more) ∧
    (∀ field ∈ word :: path :: more, ';' ∉ field.toList) ∧
    trim word ∈ ImageKind.words ∧ ∃ c ∈ path.toList, isBlank c = false

theorem trim_ne_empty_iff {s : String} : trim s ≠ "" ↔ ∃ c ∈ s.toList, isBlank c = false := by
  rw [Ne, trim_eq_empty_iff]
  simp

theorem exists_parse_iff : (∃ d, parse text = .ok d) ↔ IsDescription text := by
  constructor
  · rintro ⟨d, h⟩
    obtain ⟨word, path, more, hsplit, hword, hpath, inhabited, -⟩ := parse_eq_ok_iff.1 h
    refine ⟨word, path, more, ?_, ?_, ?_, ?_⟩
    · rw [← hsplit]
      exact (join_splitOn ';' text).symm
    · rw [← hsplit]
      exact fun field hfield => notMem_of_mem_splitOn hfield
    · exact ImageKind.mem_words_iff.2 ⟨d.kind, hword⟩
    · rw [← trim_ne_empty_iff, hpath]
      exact inhabited
  · rintro ⟨word, path, more, rfl, apart, hword, solid⟩
    obtain ⟨kind, hkind⟩ := ImageKind.mem_words_iff.1 hword
    exact ⟨⟨kind, trim path, (more.map trim).head?.bind size?⟩, parse_eq_ok_iff.2 ⟨word, path, more,
      splitOn_join (List.cons_ne_nil _ _) apart, hkind, rfl, trim_ne_empty_iff.2 solid, rfl⟩⟩

/-- **Descriptions are read exactly**: the texts that are read are those with the word of a kind and
a path; every description is read back from its text; and whatever is read is a description that can
be written down and read again, with which size a third field may give it and whatever follows. -/
theorem parse_exact :
    (∀ text, (∃ d, parse text = .ok d) ↔ IsDescription text) ∧
    (∀ d : ImageDescription, d.WellFormed → parse d.print = .ok d) ∧
    (∀ text d, parse text = .ok d → d.WellFormed ∧ parse d.print = .ok d ∧
      ∀ size more, ∃ read, parse (text ++ ";" ++ size) = .ok { d with size := read } ∧
        parse (text ++ ";" ++ size ++ ";" ++ more) = .ok { d with size := read }) :=
  ⟨fun _ => exists_parse_iff, fun _ => parse_print, fun _ _ h =>
    ⟨wellFormed_of_parse h, parse_print (wellFormed_of_parse h), parse_append h⟩⟩

/-- A picture with a size. -/
def okPicture : ImageDescription :=
  { kind := .embed, path := "images/ok.png", size := some (16, -1) }

/-- With blanks around the fields and one field more, a description is read as the same picture. -/
theorem parse_okPicture :
    parse "Embed; images/ok.png ;[ 16,-1];old" = .ok okPicture ∧
      okPicture.print = "Embed;images/ok.png;[16,-1]" ∧ okPicture.WellFormed ∧
      parse okPicture.print = .ok okPicture ∧
      IsDescription "Embed; images/ok.png ;[ 16,-1];old" := by
  have read : parse "Embed; images/ok.png ;[ 16,-1];old" = .ok okPicture := by
    with_unfolding_all rfl
  obtain ⟨wellFormed, again, -⟩ := parse_exact.2.2 _ _ read
  exact ⟨read, by decide, wellFormed, again, (parse_exact.1 _).1 ⟨_, read⟩⟩

end ImageDescription

end FormDesign
