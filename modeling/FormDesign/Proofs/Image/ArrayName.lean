import FormDesign.Proofs.Code.PictureData
import FormDesign.Proofs.Code.VariableNames

/-!
# Names of data arrays

The name of an array is made of the stem of a file name, in snake case and with a letter in front if
need be, and of the extension. Of the stem only letters and digits of ASCII are left, but the
extension is taken as it is. So the name is one that languages accept if and only if the extension
is a word of ASCII already. In Ruby a name is in capitals and of a constant, so that it must begin
with a letter.

* `Text.Chars.exists_mem_words_iff`: the letters that words of ASCII are made of
* `toList_arrayName`: what stands in front of the extension, and the extension
* `isName_arrayName_iff`: when the name is one
* `arrayName_accepted_iff`: the same, with the names that are written for it
-/

namespace FormDesign

namespace Text

/-- A name as most languages know them: letters, digits and underscores of ASCII, not empty, and
without a digit at the front. -/
structure IsName (s : List Char) : Prop where
  inhabited : s ≠ []
  word : IsWord s
  start : ∀ c ∈ s.head?, c.isDigit = false

theorem forall_mem_head?_cons {p : Char → Prop} {c : Char} {s : List Char} :
    (∀ d ∈ (c :: s).head?, p d) ↔ p c := by
  rw [List.head?_cons]
  exact ⟨fun h => h c rfl, fun h d hd => Option.some.inj hd ▸ h⟩

theorem isName_cons {c : Char} {s : List Char} :
    IsName (c :: s) ↔ IsWord (c :: s) ∧ c.isDigit = false :=
  ⟨fun h => ⟨h.word, forall_mem_head?_cons.1 h.start⟩,
    fun h => ⟨List.cons_ne_nil c s, h.1, forall_mem_head?_cons.2 h.2⟩⟩

/-! ## Characters of ASCII -/

theorem isWordChar_of_isAlphanum {c : Char} (h : c.isAlphanum = true) : isWordChar c = true := by
  rw [isWordChar, h, Bool.true_or]

/-- What the functions on characters make of a letter or digit of ASCII. -/
structure IsPlainLetter (c : Char) : Prop where
  solid : isBlank c = false
  joined : Chars.isSeparator [c] = false
  word_lower : isWordChar c.toLower = true
  upper_lower : upperChar c.toLower = upperChar c
  lowered : c.toLower.isLower = true ∨ c.toLower.isDigit = true
  /-- A small letter is no digit, and it becomes a capital, which is none either. -/
  capital : c.isLower = true → c.isDigit = false ∧
    ∃ d, upperChar c = [d] ∧ d.isUpper = true ∧ d.isDigit = false

theorem isPlainLetter {c : Char} (h : c.isAlphanum = true) : IsPlainLetter c := by
  -- all of it is looked up at once
  have facts := of_isWordChar (p := fun c => !c.isAlphanum || decide (
    isBlank c = false ∧ Chars.isSeparator [c] = false ∧ isWordChar c.toLower = true ∧
      upperChar c.toLower = upperChar c ∧
      (c.toLower.isLower = true ∨ c.toLower.isDigit = true) ∧
      (c.isLower = true → c.isDigit = false ∧ upperChar c = [c.toUpper] ∧
        c.toUpper.isUpper = true ∧ c.toUpper.isDigit = false))) (by decide +kernel)
    (isWordChar_of_isAlphanum h)
  rw [h, Bool.not_true, Bool.false_or, decide_eq_true_eq] at facts
  obtain ⟨solid, joined, word_lower, upper_lower, lowered, capital⟩ := facts
  exact
    { solid, joined, word_lower, upper_lower, lowered
      capital := fun small => ⟨(capital small).1, c.toUpper, (capital small).2⟩ }

theorem isAlphanum_of_isUpper {c : Char} (h : c.isUpper = true) : c.isAlphanum = true := by
  show (c.isUpper || c.isLower || c.isDigit) = true
  rw [h, Bool.true_or, Bool.true_or]

theorem of_isLower {c : Char} (h : c.isLower = true) :
    c.isDigit = false ∧ ∃ d, upperChar c = [d] ∧ d.isUpper = true ∧ d.isDigit = false := by
  have letter : (c.isUpper || c.isLower || c.isDigit) = true := by
    rw [h, Bool.or_true, Bool.true_or]
  exact (isPlainLetter letter).capital h

/-- Small letters of ASCII are made of capitals only. -/
theorem toLower_eq_self {c : Char} (h : c.isUpper = false) : c.toLower = c := by
  delta Char.toLower
  exact dif_neg (of_decide_eq_false h)

theorem isWordChar_toLower (c : Char) : isWordChar c.toLower = isWordChar c := by
  cases h : c.isUpper with
  | false => rw [toLower_eq_self h]
  | true =>
    have letter := isAlphanum_of_isUpper h
    exact (isPlainLetter letter).word_lower.trans (isWordChar_of_isAlphanum letter).symm

theorem upperChar_toLower (c : Char) : upperChar c.toLower = upperChar c := by
  cases h : c.isUpper with
  | false => rw [toLower_eq_self h]
  | true => exact (isPlainLetter (isAlphanum_of_isUpper h)).upper_lower

theorem isWord_map_toLower {s : List Char} : IsWord (s.map Char.toLower) ↔ IsWord s := by
  simp [IsWord, isWordChar_toLower]

/-! ## Words of ASCII -/

namespace Chars

/-- In ASCII every character is a cluster of its own. -/
theorem clusters_eq_map {s : List Char} (ascii : ∀ c ∈ s, c.toNat < 128) :
    clusters s = s.map fun c => [c] := by
  have alone (e : Ending) (c d : Char) (hc : c.toNat < 128) (hd : d.toNat < 128) :
      e.joins c d = false := by
    have joiner : (d == joiner) = false := by
      rw [beq_eq_false_iff_ne]
      rintro rfl
      exact absurd hd (by decide)
    simp [Ending.joins, isJoining, isAccent, isLeading, isPictograph, joiner, Nat.not_le.2 hc,
      Nat.not_le.2 hd]
  have from_ (e : Ending) (c : Char) (s : List Char) (ascii : ∀ d ∈ c :: s, d.toNat < 128) :
      clustersFrom e c s = (c :: s).map fun c => [c] := by
    induction s generalizing e c with
    | nil => rfl
    | cons d rest ih =>
      obtain ⟨hc, hrest⟩ := List.forall_mem_cons.1 ascii
      rw [clustersFrom, ih _ _ hrest]
      simp [alone e c d hc (hrest d List.mem_cons_self)]
  cases s with
  | nil => rfl
  | cons c rest => exact from_ _ c rest ascii

/-- Words of ASCII are made of all the letters that do not separate them. -/
theorem exists_mem_words_iff {s : List Char} (ascii : ∀ c ∈ s, c.toNat < 128) {c : Char} :
    (∃ w ∈ words s, c ∈ w) ↔ c ∈ s ∧ isSeparator [c] = false := by
  have kept : (∃ w ∈ words s, c ∈ w) ↔ ∃ w ∈ wordsFrom none [] (clusters s), c ∈ w := by
    refine exists_congr fun w => ?_
    rw [words, List.mem_filter]
    exact and_congr_left fun hc => and_iff_left (decide_eq_true (List.ne_nil_of_mem hc))
  rw [kept, exists_mem_wordsFrom_iff, clusters_eq_map ascii]
  simp [and_comm]

theorem mem_dropWhile_of_neg {p : Char → Bool} {s : List Char} {c : Char} (h : c ∈ s)
    (hp : p c = false) : c ∈ s.dropWhile p := by
  rw [← List.takeWhile_append_dropWhile (p := p) (l := s), List.mem_append] at h
  exact h.resolve_left fun taken =>
    Bool.false_ne_true (hp.symm.trans (List.mem_takeWhile_imp taken))

/-- Trimming takes blanks only. -/
theorem mem_trim_iff {s : List Char} {c : Char} (solid : isBlank c = false) :
    c ∈ trim s ↔ c ∈ s := by
  refine ⟨mem_of_mem_trim, fun h => ?_⟩
  have front : c ∈ trimStart s := mem_dropWhile_of_neg h solid
  exact List.mem_reverse.2 (mem_dropWhile_of_neg (List.mem_reverse.2 front) solid)

end Chars

/-- A joined text begins like the first of the texts, if that is not empty. -/
theorem head?_join_cons {sep text : String} (texts : List String) (h : text.toList ≠ []) :
    (join sep (text :: texts)).toList.head? = text.toList.head? := by
  obtain ⟨c, rest, hc⟩ := List.exists_cons_of_ne_nil h
  unfold join
  cases texts with
  | nil => rw [String.intercalate_singleton]
  | cons next texts =>
    rw [String.intercalate_cons_cons, String.append_assoc, String.toList_append, hc]
    rfl

end Text

open Text

/-! ## The stem -/

/-- The letters and digits of a stem, with blanks for all else and without those at its ends. -/
def stemLetters (path : String) : String :=
  trim (((FilePath.stem? path).getD "").map fun c => if c.isAlphanum then c else ' ')

/-- The stem in snake case. -/
def stemName (path : String) : String :=
  snakeCase (stemLetters path)

/-- The stem holds a letter or a digit of ASCII. -/
def HasStem (path : String) : Prop :=
  ∃ c ∈ ((FilePath.stem? path).getD "").toList, c.isAlphanum = true

theorem mem_stemLetters {path : String} {c : Char} (h : c ∈ (stemLetters path).toList) :
    c.isAlphanum = true ∨ c = ' ' := by
  rw [stemLetters, trim, String.toList_ofList, String.toList_map] at h
  obtain ⟨d, -, rfl⟩ := List.mem_map.1 (Chars.mem_of_mem_trim h)
  split
  · next hd => exact Or.inl hd
  · exact Or.inr rfl

theorem exists_mem_stemLetters_iff (path : String) :
    (∃ c ∈ (stemLetters path).toList, c.isAlphanum = true) ↔ HasStem path := by
  rw [stemLetters, trim, String.toList_ofList, String.toList_map, HasStem]
  constructor
  · rintro ⟨c, hc, letter⟩
    obtain ⟨d, hd, rfl⟩ := List.mem_map.1 (Chars.mem_of_mem_trim hc)
    split at letter
    · next hletter => exact ⟨d, hd, hletter⟩
    · cases letter
  · rintro ⟨c, hc, letter⟩
    exact ⟨c, (Chars.mem_trim_iff (isPlainLetter letter).solid).2
      (List.mem_map.2 ⟨c, hc, if_pos letter⟩), letter⟩

/-- The letters of the words of a stem are all of its letters and digits. -/
theorem exists_mem_words_stemLetters_iff {path : String} {c : Char} :
    (∃ w ∈ Chars.words (stemLetters path).toList, c ∈ w)
      ↔ c ∈ (stemLetters path).toList ∧ c.isAlphanum = true := by
  have ascii : ∀ d ∈ (stemLetters path).toList, d.toNat < 128 := by
    intro d hd
    rcases mem_stemLetters hd with letter | rfl
    · exact toNat_lt_of_isWordChar (isWordChar_of_isAlphanum letter)
    · decide
  rw [Chars.exists_mem_words_iff ascii]
  refine and_congr_right fun hc => ?_
  rcases mem_stemLetters hc with letter | rfl
  · exact iff_of_true (isPlainLetter letter).joined letter
  · decide

theorem isAlphanum_of_mem_words {path : String} {w : List Char}
    (hw : w ∈ Chars.words (stemLetters path).toList) : ∀ c ∈ w, c.isAlphanum = true :=
  fun _ hc => (exists_mem_words_stemLetters_iff.1 ⟨w, hw, hc⟩).2

theorem isWord_stemName (path : String) : IsWord (stemName path).toList := by
  refine forall_mem_join (List.forall_mem_singleton.2 rfl) fun text htext => ?_
  obtain ⟨w, hw, rfl⟩ := List.mem_map.1 htext
  have letters : IsWord w := fun c hc =>
    isWordChar_of_isAlphanum (isAlphanum_of_mem_words hw c hc)
  rw [String.toList_ofList, Chars.lower, Chars.lowerFrom_eq_map letters]
  exact isWord_map_toLower.2 letters

/-- A stem without letters and digits leaves nothing of its name, and any other a name that begins
with a small letter or a digit. -/
theorem stemName_cases (path : String) :
    (¬HasStem path ∧ stemName path = "") ∨
      (HasStem path ∧ ∃ c rest, (stemName path).toList = c :: rest ∧
        (c.isLower = true ∨ c.isDigit = true)) := by
  rw [← exists_mem_stemLetters_iff]
  cases hwords : Chars.words (stemLetters path).toList with
  | nil =>
    refine Or.inl ⟨?_, ?_⟩
    · rintro ⟨c, hc⟩
      obtain ⟨w, hw, -⟩ := exists_mem_words_stemLetters_iff.2 hc
      rw [hwords] at hw
      cases hw
    · rw [stemName, snakeCase, hwords]
      rfl
  | cons w more =>
    have hw : w ∈ Chars.words (stemLetters path).toList := by
      rw [hwords]
      exact List.mem_cons_self
    obtain ⟨c, rest, rfl⟩ := List.exists_cons_of_ne_nil (of_decide_eq_true (List.mem_filter.1 hw).2)
    have letters := isAlphanum_of_mem_words hw
    have letter := letters c List.mem_cons_self
    have lowered : Chars.lower (c :: rest) = c.toLower :: rest.map Char.toLower :=
      Chars.lowerFrom_eq_map fun d hd => isWordChar_of_isAlphanum (letters d hd)
    have first : (stemName path).toList.head? = some c.toLower := by
      rw [stemName, snakeCase, hwords, List.map_cons]
      refine (head?_join_cons _ ?_).trans ?_ <;> rw [String.toList_ofList, lowered]
      · exact List.cons_ne_nil _ _
      · rfl
    obtain ⟨rest', hrest'⟩ := List.head?_eq_some_iff.1 first
    refine Or.inr ⟨⟨c, (exists_mem_words_stemLetters_iff.1 ⟨_, hw, List.mem_cons_self⟩).1, letter⟩,
      _, _, hrest', (isPlainLetter letter).lowered⟩

/-! ## The name -/

/-- What stands in front of the extension. -/
def arrayFront (path : String) : String :=
  if startsWhere (stemName path) Char.isDigit then "img_" ++ stemName path
  else if stemName path = "" && (FilePath.extension? path).isNone then "img_"
  else stemName path

/-- The extension behind an underscore, if there is one. -/
def arrayEnding (path : String) : List Char :=
  match FilePath.extension? path with
  | some ext => '_' :: ext.toList.map Char.toLower
  | none => []

/-- The stem and the extension, as far as they go. -/
def stemAndEnding (path : String) : String :=
  match FilePath.extension? path with
  | some ext => stemName path ++ "_" ++ asciiLower ext
  | none => stemName path

theorem arrayName_eq (path : String) : arrayName path =
    if stemAndEnding path = "" || startsWhere (stemAndEnding path) Char.isDigit
      then "img_" ++ stemAndEnding path else stemAndEnding path :=
  rfl

theorem toList_stemAndEnding (path : String) :
    (stemAndEnding path).toList = (stemName path).toList ++ arrayEnding path := by
  unfold stemAndEnding arrayEnding
  cases FilePath.extension? path with
  | none => exact (List.append_nil _).symm
  | some ext => simp [asciiLower, String.toList_append, String.toList_map]

theorem toList_arrayName (path : String) :
    (arrayName path).toList = (arrayFront path).toList ++ arrayEnding path := by
  have digit : startsWhere (stemAndEnding path) Char.isDigit
      = startsWhere (stemName path) Char.isDigit := by
    rw [startsWhere, startsWhere, toList_stemAndEnding]
    rcases stemName_cases path with ⟨-, bare⟩ | ⟨-, c, rest, first, -⟩
    · rw [bare, arrayEnding]
      split <;> rfl
    · rw [first]
      rfl
  have empty : stemAndEnding path = ""
      ↔ stemName path = "" ∧ (FilePath.extension? path).isNone = true := by
    rw [← String.toList_eq_nil_iff, toList_stemAndEnding, List.append_eq_nil_iff,
      String.toList_eq_nil_iff, arrayEnding]
    cases FilePath.extension? path <;> simp
  rw [arrayName_eq, arrayFront, digit]
  by_cases starts : startsWhere (stemName path) Char.isDigit = true
  · rw [if_pos (by rw [starts, Bool.or_true]), if_pos starts, String.toList_append,
      toList_stemAndEnding, String.toList_append, List.append_assoc]
  · rw [if_neg starts, Bool.eq_false_iff.2 starts, Bool.or_false]
    by_cases bare : stemAndEnding path = ""
    · obtain ⟨stem, ext⟩ := empty.1 bare
      rw [if_pos (decide_eq_true bare), if_pos (by rw [stem, ext]; rfl), String.toList_append,
        toList_stemAndEnding, stem]
      rfl
    · have some : ¬(decide (stemName path = "") && (FilePath.extension? path).isNone) = true := by
        rwa [Bool.and_eq_true, decide_eq_true_eq, ← empty]
      rw [if_neg (by simpa using bare), if_neg some, toList_stemAndEnding]

theorem isWord_arrayFront (path : String) : IsWord (arrayFront path).toList := by
  have stem := isWord_stemName path
  have mark : IsWord "img_".toList := by decide
  unfold arrayFront
  split_ifs
  · rw [String.toList_append]
    exact List.forall_mem_append.2 ⟨mark, stem⟩
  · exact mark
  · exact stem

/-- What is in front begins with a small letter, or there is only an extension. -/
theorem arrayFront_cases (path : String) :
    (∃ c rest, (arrayFront path).toList = c :: rest ∧ c.isLower = true ∧
        (HasStem path ∨ FilePath.extension? path = none)) ∨
      (arrayFront path = "" ∧ ¬HasStem path ∧ FilePath.extension? path ≠ none) := by
  unfold arrayFront
  rcases stemName_cases path with ⟨stem, bare⟩ | ⟨stem, c, rest, first, letter⟩
  · rw [bare, if_neg (by decide)]
    cases hext : FilePath.extension? path with
    | none => exact Or.inl ⟨'i', _, rfl, rfl, Or.inr rfl⟩
    | some ext => exact Or.inr ⟨rfl, stem, Option.some_ne_none ext⟩
  · have inhabited : stemName path ≠ "" := by
      intro bare
      rw [bare] at first
      cases first
    have starts : startsWhere (stemName path) Char.isDigit = c.isDigit := by
      rw [startsWhere, first]
      rfl
    rw [starts]
    cases digit : c.isDigit with
    | true =>
      rw [if_pos rfl, String.toList_append]
      exact Or.inl ⟨'i', "mg_".toList ++ (stemName path).toList, rfl, rfl, Or.inl stem⟩
    | false =>
      rw [if_neg Bool.false_ne_true, if_neg (by simp [inhabited])]
      exact Or.inl ⟨c, rest, first, letter.resolve_right (Bool.eq_false_iff.1 digit), Or.inl stem⟩

/-! ## Names that are accepted -/

/-- The extension is a word of ASCII, if there is one. -/
def PlainExtension (path : String) : Prop :=
  ∀ ext ∈ FilePath.extension? path, IsWord ext.toList

theorem isWord_arrayEnding_iff (path : String) :
    IsWord (arrayEnding path) ↔ PlainExtension path := by
  unfold arrayEnding PlainExtension
  cases FilePath.extension? path with
  | none => simp [IsWord]
  | some ext =>
    have underscore : Text.isWordChar '_' = true := rfl
    rw [IsWord, List.forall_mem_cons, and_iff_right underscore]
    exact isWord_map_toLower.trans (by simp)

/-- The name of an array is one that languages accept if and only if the extension of the file is a
word of ASCII. -/
theorem isName_arrayName_iff (path : String) :
    IsName (arrayName path).toList ↔ PlainExtension path := by
  obtain ⟨c, rest, hcons, hstart⟩ : ∃ c rest,
      (arrayFront path).toList ++ arrayEnding path = c :: rest ∧ c.isDigit = false := by
    rcases arrayFront_cases path with ⟨c, rest, front, lower, -⟩ | ⟨front, -, ext⟩
    · exact ⟨c, _, by rw [front]; rfl, (of_isLower lower).1⟩
    · rw [front, arrayEnding]
      split
      · exact ⟨'_', _, rfl, rfl⟩
      · next none => exact absurd none ext
  rw [← isWord_arrayEnding_iff, toList_arrayName, hcons, isName_cons, and_iff_left hstart, ← hcons]
  exact List.forall_mem_append.trans (and_iff_right (isWord_arrayFront path))

/-! ## Capitals -/

theorem toList_upper_arrayName (path : String) : (upper (arrayName path)).toList
    = Chars.upper (arrayFront path).toList ++ Chars.upper (arrayEnding path) := by
  rw [upper, String.toList_ofList, toList_arrayName, Chars.upper, List.flatMap_append]
  rfl

/-- In capitals the extension is a word of ASCII, if there is one. -/
def PlainUpperExtension (path : String) : Prop :=
  ∀ ext ∈ FilePath.extension? path, IsWord (upper ext).toList

theorem isWord_upper_arrayEnding_iff (path : String) :
    IsWord (Chars.upper (arrayEnding path)) ↔ PlainUpperExtension path := by
  unfold arrayEnding PlainUpperExtension
  cases FilePath.extension? path with
  | none => simp [IsWord, Chars.upper]
  | some ext =>
    have capitals : Chars.upper ('_' :: ext.toList.map Char.toLower)
        = '_' :: Chars.upper ext.toList := by
      rw [Chars.upper, List.flatMap_cons, List.flatMap_map, Chars.upper]
      simp only [upperChar_toLower]
      rfl
    have underscore : Text.isWordChar '_' = true := rfl
    rw [capitals, IsWord, List.forall_mem_cons, and_iff_right underscore]
    simp [IsWord, upper]

/-- In capitals the name is that of a constant if and only if the extension is a word then, and does
not stand alone. -/
theorem isConstant_upper_arrayName_iff (path : String) :
    (IsName (upper (arrayName path)).toList ∧
        ∀ c ∈ (upper (arrayName path)).toList.head?, c.isUpper = true)
      ↔ PlainUpperExtension path ∧ (HasStem path ∨ FilePath.extension? path = none) := by
  rw [← isWord_upper_arrayEnding_iff, toList_upper_arrayName]
  rcases arrayFront_cases path with ⟨c, rest, front, lower, stem⟩ | ⟨front, stem, ext⟩
  · obtain ⟨-, d, capital, hupper, hdigit⟩ := of_isLower lower
    have hcons : Chars.upper (arrayFront path).toList = d :: Chars.upper rest := by
      rw [front, Chars.upper, List.flatMap_cons, capital]
      rfl
    have word : IsWord (d :: Chars.upper rest) :=
      hcons ▸ Chars.isWord_upper (isWord_arrayFront path)
    rw [hcons, List.cons_append, isName_cons, and_iff_left hdigit, forall_mem_head?_cons,
      and_iff_left hupper, and_iff_left stem, ← List.cons_append]
    exact List.forall_mem_append.trans (and_iff_right word)
  · -- the underscore in front of the extension comes first
    refine iff_of_false (fun h => ?_) fun h => ?_
    · have capital := h.2
      rw [front, arrayEnding] at capital
      split at capital
      · exact absurd (capital '_' rfl) (by decide)
      · next none => exact ext none
    · exact h.2.elim stem ext

/-! ## The names that are written -/

namespace Dialect

/-- Whether the dialect accepts the name for the data of an image, reserved words aside. In Ruby it
names a constant, and begins with a capital. -/
def AcceptsName (d : Dialect) (name : String) : Prop :=
  IsName name.toList ∧ (d = .ruby → ∀ c ∈ name.toList.head?, c.isUpper = true)

/-- Whether the file is named so that its data has a name that the dialect accepts. -/
def FitsFile (d : Dialect) (path : String) : Prop :=
  match d with
  | .cpp | .python | .perl => PlainExtension path
  | .ruby => PlainUpperExtension path ∧ (HasStem path ∨ FilePath.extension? path = none)

theorem acceptsName_dataName_iff (d : Dialect) {a : Asset} {path : String}
    (h : a.arrayName = arrayName path) : d.AcceptsName (d.dataName a) ↔ d.FitsFile path := by
  cases d with
  | cpp | python | perl =>
    refine (and_iff_left fun ruby => by cases ruby).trans ?_
    rw [dataName, h]
    exact isName_arrayName_iff path
  | ruby =>
    rw [AcceptsName, imp_iff_right rfl, dataName, h]
    exact isConstant_upper_arrayName_iff path

end Dialect

/-- **Arrays have names that languages accept**, except for files whose extension is not a word of
ASCII. The same holds of the names that the data is written under. In Ruby it is the extension in
capitals that counts, and the stem must not be missing in front of it. -/
theorem arrayName_accepted_iff (path : String) :
    (IsName (arrayName path).toList ↔ PlainExtension path) ∧
      ∀ (d : Dialect) (a : Asset), a.arrayName = arrayName path →
        (d.AcceptsName (d.dataName a) ↔ d.FitsFile path) :=
  ⟨isName_arrayName_iff path, fun d _ h => d.acceptsName_dataName_iff h⟩

/-- An image of one byte, with the name that its file gives. -/
def byteImage (path : String) : Asset :=
  { id := 0, filename := path, arrayName := arrayName path, kind := .embed, payload := [137],
    sourceTime := some 1 }

/-- Capitals and a dash in the stem do no harm. -/
theorem saveAs_accepted : arrayName "images/Save-As.png" = "save_as_png" ∧
    IsName (arrayName "images/Save-As.png").toList ∧
    ∀ d : Dialect, d.AcceptsName (d.dataName (byteImage "images/Save-As.png")) := by
  have accepted := arrayName_accepted_iff "images/Save-As.png"
  obtain ⟨name, hstem, hext⟩ : arrayName "images/Save-As.png" = "save_as_png" ∧
      FilePath.stem? "images/Save-As.png" = some "Save-As" ∧
      FilePath.extension? "images/Save-As.png" = some "png" := by
    decide +kernel
  have plain : PlainExtension "images/Save-As.png" := by
    rw [PlainExtension, hext]
    decide
  refine ⟨name, accepted.1.2 plain, fun d => (accepted.2 d _ rfl).2 ?_⟩
  cases d with
  | cpp | python | perl => exact plain
  | ruby =>
    refine ⟨?_, Or.inl ⟨'S', ?_, rfl⟩⟩
    · rw [PlainUpperExtension, hext]
      decide
    · rw [hstem]
      decide

/-- A dash in the extension stays, and no dialect accepts it. -/
theorem oldLogo_not_accepted : arrayName "logo.png-old" = "logo_png-old" ∧
    ¬IsName (arrayName "logo.png-old").toList ∧
    ∀ d : Dialect, ¬d.AcceptsName (d.dataName (byteImage "logo.png-old")) := by
  have name : arrayName "logo.png-old" = "logo_png-old" := by decide +kernel
  have refused {s : String} (dash : '-' ∈ s.toList) : ¬IsName s.toList :=
    fun h => absurd (h.word '-' dash) (by decide)
  refine ⟨name, refused ?_, fun d h => refused ?_ h.1⟩
  · rw [name]
    decide
  · cases d <;> rw [Dialect.dataName, byteImage, name] <;> decide

end FormDesign
