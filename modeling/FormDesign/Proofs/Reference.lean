import FormDesign.Proofs.Identifier
import FormDesign.Proofs.Literal

/-!
# What code refers to

The paths in a piece of code, read off from its text: the longest runs of characters that names and
numbers are made of, with the marks between the parts of a path. What stands in a literal is left
out. A path is known before there is an object if it is a number, a name of the toolkit, a name of
an identifier or the null literal.

* `Text.Chars.pastLiteral_of_readQuoted?`: literals are left where they are read up to
* `Dialect.references_append_cons`: what stands on both sides of a sign
* `Dialect.unquoted_constants`: constants and numbers with bars between
* `Dialect.inScope_textLiteral`: a literal refers to nothing
-/

namespace FormDesign

/-! ## Outside of literals -/

namespace Text.Chars

mutual

/-- The code outside of its literals. Of each literal the opening quote is left. -/
def outside : List Char → List Char
  | [] => []
  | c :: rest => c :: if c = '"' then pastLiteral rest else outside rest

/-- The code outside of the literals, from within the first one. A backslash takes the next
character with it. -/
def pastLiteral : List Char → List Char
  | [] => []
  | '"' :: rest => outside rest
  | '\\' :: _ :: rest => pastLiteral rest
  | _ :: rest => pastLiteral rest

end

theorem outside_append {s : List Char} (h : '"' ∉ s) (t : List Char) :
    outside (s ++ t) = s ++ outside t := by
  induction s with
  | nil => rfl
  | cons c rest ih =>
    rw [List.mem_cons, not_or] at h
    rw [List.cons_append, outside, if_neg (Ne.symm h.1), ih h.2, List.cons_append]

theorem outside_eq_self {s : List Char} (h : '"' ∉ s) : outside s = s := by
  simpa [outside] using outside_append h []

/-- A literal is left behind the quote up to which it is read. -/
theorem pastLiteral_of_readQuoted? {s text rest : List Char}
    (h : readQuoted? s = some (text, rest)) : pastLiteral s = outside rest := by
  induction s using readQuoted?.induct generalizing text with
  | case1 => cases h
  | case2 after =>
    obtain ⟨-, rfl⟩ := Prod.mk.inj (Option.some.inj h)
    rfl
  | case3 c after ih =>
    obtain ⟨⟨more, left⟩, hread, heq⟩ := Option.map_eq_some_iff.1 h
    obtain ⟨-, rfl⟩ := Prod.mk.inj heq
    exact ih hread
  | case4 c after quote escape ih =>
    rw [readQuoted?.eq_4 _ _ quote escape] at h
    obtain ⟨⟨more, left⟩, hread, heq⟩ := Option.map_eq_some_iff.1 h
    obtain ⟨-, rfl⟩ := Prod.mk.inj heq
    rw [pastLiteral.eq_4 _ _ quote escape]
    exact ih hread

end Text.Chars

/-! ## Words -/

namespace Text

/-- Letters, digits and underscores of ASCII. -/
def isWordChar (c : Char) : Bool :=
  c.isAlphanum || c == '_'

/-- A word of letters, digits and underscores. -/
def IsWord (s : List Char) : Prop :=
  ∀ c ∈ s, isWordChar c = true

instance (s : List Char) : Decidable (IsWord s) :=
  List.decidableBAll (fun c => isWordChar c = true) s

/-- A numeral without its sign. -/
def unsigned : List Char → List Char
  | '+' :: rest | '-' :: rest => rest
  | s => s

/-- A whole number with or without a sign. -/
structure IsNumeral (s : List Char) : Prop where
  inhabited : unsigned s ≠ []
  digits : ∀ c ∈ unsigned s, c.isDigit = true

instance (s : List Char) : Decidable (IsNumeral s) :=
  @decidable_of_iff _ (unsigned s ≠ [] ∧ ∀ c ∈ unsigned s, c.isDigit = true)
    ⟨fun h => ⟨h.1, h.2⟩, fun h => ⟨h.1, h.2⟩⟩
    (@instDecidableAnd _ _ _ (List.decidableBAll (fun c => c.isDigit = true) (unsigned s)))

theorem unsigned_cases (s : List Char) :
    s = unsigned s ∨ ∃ sign ∈ ['+', '-'], s = sign :: unsigned s := by
  unfold unsigned
  split
  · exact Or.inr ⟨'+', by decide, rfl⟩
  · exact Or.inr ⟨'-', by decide, rfl⟩
  · exact Or.inl rfl

theorem isWordChar_of_isDigit {c : Char} (h : c.isDigit = true) : isWordChar c = true := by
  simp [isWordChar, Char.isAlphanum, h]

theorem toNat_lt_of_isWordChar {c : Char} (h : isWordChar c = true) : c.toNat < 128 := by
  delta isWordChar Char.isAlphanum Char.isAlpha Char.isUpper Char.isLower Char.isDigit at h
  simp only [Bool.or_eq_true, Bool.and_eq_true, decide_eq_true_eq, beq_iff_eq, ge_iff_le,
    UInt32.le_iff_toNat_le] at h
  show c.val.toNat < 128
  rcases h with ((h | h) | h) | rfl
  · exact Nat.lt_of_le_of_lt h.2 (by decide)
  · exact Nat.lt_of_le_of_lt h.2 (by decide)
  · exact Nat.lt_of_le_of_lt h.2 (by decide)
  · decide

/-- What holds of the word characters of ASCII one by one. -/
theorem of_isWordChar {p : Char → Bool}
    (ascii : ∀ n < 128, isWordChar (Char.ofNat n) = true → p (Char.ofNat n) = true) {c : Char}
    (h : isWordChar c = true) : p c = true := by
  have step := ascii c.toNat (toNat_lt_of_isWordChar h)
  rw [Char.ofNat_toNat] at step
  exact step h

theorem isWordChar_toUpper {c : Char} (h : isWordChar c = true) : isWordChar c.toUpper = true :=
  of_isWordChar (p := fun c => isWordChar c.toUpper) (by decide +kernel) h

namespace Chars

theorem isWord_upper {s : List Char} (h : IsWord s) : IsWord (upper s) := by
  intro c hc
  obtain ⟨d, hd, hc⟩ := List.mem_flatMap.1 hc
  rw [upperChar, if_pos (toNat_lt_of_isWordChar (h d hd)), List.mem_singleton] at hc
  rw [hc]
  exact isWordChar_toUpper (h d hd)

/-- The words are made of the clusters that do not separate them. -/
theorem exists_mem_wordsFrom_iff {before : Option (List Char)} {word gs : List (List Char)}
    {c : Char} : (∃ w ∈ wordsFrom before word gs, c ∈ w) ↔
      c ∈ word.flatten ∨ ∃ g ∈ gs, isSeparator g = false ∧ c ∈ g := by
  -- the word begun is made of the clusters that were collected for it
  have begun (word : List (List Char)) : c ∈ word.reverse.flatten ↔ c ∈ word.flatten := by
    simp
  induction gs generalizing before word with
  | nil => simp [wordsFrom]
  | cons g rest ih =>
    rw [wordsFrom]
    split_ifs with separates splits
    · simp [begun, ih, separates]
    · simp [begun, ih, separates]
    · simp [ih, separates, or_left_comm, or_assoc]

/-- The letters of a word come from the name. -/
theorem mem_of_mem_words {s w : List Char} (hw : w ∈ words s) {c : Char} (hc : c ∈ w) : c ∈ s := by
  rcases exists_mem_wordsFrom_iff.1 ⟨w, (List.mem_filter.1 hw).1, hc⟩ with begun | ⟨g, hg, -, hc⟩
  · cases begun
  · rw [← flatten_clusters s]
    exact List.mem_flatten.2 ⟨g, hg, hc⟩

theorem isWord_of_mem_words {s : List Char} (h : IsWord s) {w : List Char} (hw : w ∈ words s) :
    IsWord w :=
  fun c hc => h c (mem_of_mem_words hw hc)

end Chars

theorem isWord_upperSnakeCase {s : String} (h : IsWord s.toList) :
    IsWord (upperSnakeCase s).toList := by
  refine forall_mem_join (List.forall_mem_singleton.2 rfl) fun text htext => ?_
  obtain ⟨w, hw, rfl⟩ := List.mem_map.1 htext
  rw [String.toList_ofList]
  exact Chars.isWord_upper (Chars.isWord_of_mem_words h hw)

end Text

/-! ## Names of the toolkit -/

theorem Text.eq_append_of_dropStart? {s start rest : String} (h : dropStart? s start = some rest) :
    s = start ++ rest := by
  obtain ⟨chars, hdrop, rfl⟩ := Option.map_eq_some_iff.1 h
  unfold Chars.dropStart? at hdrop
  split at hdrop
  · next front =>
    obtain ⟨more, hmore⟩ := List.isPrefixOf_iff_prefix.1 front
    obtain rfl := Option.some.inj hdrop
    rw [← String.toList_inj, ← hmore, String.toList_append, List.drop_left, String.toList_ofList]
  · cases hdrop

theorem eq_append_bareName {name : String} (h : isToolkitName name = true) :
    name = "wx" ++ bareName name := by
  have bare : bareName name ≠ name := by simpa [isToolkitName] using h
  unfold bareName at bare ⊢
  cases drop : Text.dropStart? name "wx" with
  | none => exact absurd (by rw [drop]) bare
  | some rest =>
    rw [drop] at bare
    dsimp only at bare ⊢
    split at bare
    · next capital =>
      rw [if_pos capital]
      exact Text.eq_append_of_dropStart? drop
    · exact absurd rfl bare

theorem head?_of_isToolkitName {name : String} (h : isToolkitName name = true) :
    name.toList.head? = some 'w' := by
  rw [eq_append_bareName h, String.toList_append]
  rfl

/-- A constant of the toolkit, as it is written in a property. -/
structure IsConstant (name : String) : Prop where
  toolkit : isToolkitName name = true
  word : Text.IsWord name.toList

instance (name : String) : Decidable (IsConstant name) :=
  decidable_of_iff (isToolkitName name = true ∧ Text.IsWord name.toList)
    ⟨fun h => ⟨h.1, h.2⟩, fun h => ⟨h.1, h.2⟩⟩

theorem IsConstant.bare {name : String} (h : IsConstant name) :
    Text.IsWord (bareName name).toList := by
  have word := h.word
  rw [eq_append_bareName h.toolkit, String.toList_append] at word
  exact fun c hc => word c (List.mem_append_right _ hc)

/-- One of the flags of a style. -/
def IsFlag (s : String) : Prop :=
  IsConstant s ∨ Text.IsNumeral s.toList

instance (s : String) : Decidable (IsFlag s) :=
  inferInstanceAs (Decidable (IsConstant s ∨ Text.IsNumeral s.toList))

/-- Constants and numbers with bars between. -/
def IsStyle (value : String) : Prop :=
  ∀ part ∈ Text.fields '|' value, IsFlag part

instance (value : String) : Decidable (IsStyle value) :=
  List.decidableBAll IsFlag (Text.fields '|' value)

theorem IsConstant.int64?_eq_none {name : String} (h : IsConstant name) :
    Text.Numeral.int64? name = none := by
  rw [Text.Numeral.int64?, Text.Numeral.word?, eq_append_bareName h.toolkit, String.toList_append]
  rfl

theorem Text.IsNumeral.not_isToolkitName {s : String} (h : IsNumeral s.toList) :
    isToolkitName s = false := by
  rw [Bool.eq_false_iff]
  intro toolkit
  have first := head?_of_isToolkitName toolkit
  rcases unsigned_cases s.toList with bare | ⟨sign, hsign, signed⟩
  · rw [bare] at first
    cases h.digits 'w' (List.mem_of_mem_head? first)
  · rw [signed] at first
    obtain rfl : sign = 'w' := Option.some.inj first
    exact absurd hsign (by decide)

/-! ## Paths -/

namespace Dialect

/-- The characters of names and numbers. Those beyond ASCII may all be letters. -/
def isNameChar (c : Char) : Bool :=
  Text.isWordChar c || c == '@' || c == '$' || 128 ≤ c.toNat

/-- The signs between the parts of a path. -/
def pathMarks : Dialect → List Char
  | .cpp | .perl => [':']
  | .python => ['.']
  | .ruby => [':', '.']

def isPathChar (d : Dialect) (c : Char) : Bool :=
  isNameChar c || d.pathMarks.contains c

/-- The paths in a piece of code, literals aside. -/
def references (d : Dialect) (code : List Char) : List (List Char) :=
  ((Text.Chars.outside code).splitOnP fun c => !d.isPathChar c).filter (· ≠ [])

/-- Whether a path begins at the form itself. -/
def isOwn (d : Dialect) (path : List Char) : Bool :=
  match d with
  | .ruby => path.takeWhile isNameChar == d.selfRef.toList || path.head? == some '@'
  | .cpp | .python | .perl => path.takeWhile isNameChar == d.selfRef.toList

/-- Whether a path is a class or constant of the toolkit, or stands in one of its modules. -/
def isToolkitPath (d : Dialect) (path : List Char) : Bool :=
  match d with
  | .cpp | .perl => isToolkitName (String.ofList path)
  | .python => "wx.".toList.isPrefixOf path
  | .ruby => "Wx::".toList.isPrefixOf path

/-- Whether what a path refers to is there before there is a form: a number, something of the
toolkit, an identifier of the class or the null literal. -/
def isKnown (d : Dialect) (ids : List String) (path : List Char) : Bool :=
  !d.isOwn path
    && (path.all Char.isDigit || d.isToolkitPath path || ids.contains (String.ofList path)
      || path == d.nullLiteral.toList)

/-- All that the code refers to is known. -/
def InScope (d : Dialect) (ids : List String) (code : List Char) : Prop :=
  ∀ path ∈ d.references code, d.isKnown ids path = true

instance (d : Dialect) (ids : List String) (code : List Char) : Decidable (d.InScope ids code) :=
  List.decidableBAll (fun path => d.isKnown ids path = true) (d.references code)

variable {d : Dialect} {ids : List String}

/-- Signs that end every path. -/
def signs : List Char := ['(', ')', ',', '|', ' ', '+', '-']

theorem isPathChar_eq_false (d : Dialect) {sign : Char} (h : sign = '"' ∨ sign ∈ signs) :
    d.isPathChar sign = false := by
  have ends : ('"' :: signs).all (fun c => !d.isPathChar c) = true := by cases d <;> decide
  simpa using List.all_eq_true.1 ends sign (List.mem_cons.2 h)

theorem isPathChar_of_isWordChar {c : Char} (h : Text.isWordChar c = true) :
    d.isPathChar c = true := by
  simp [isPathChar, isNameChar, h]

theorem notMem_of_isPathChar {path : List Char} (chars : ∀ c ∈ path, d.isPathChar c = true) :
    '"' ∉ path := by
  intro h
  have quote := chars _ h
  rw [d.isPathChar_eq_false (Or.inl rfl)] at quote
  cases quote

/-- The paths before a sign and those behind it. -/
theorem references_append_cons {a : List Char} (ha : '"' ∉ a) {sign : Char} (hsign : sign ∈ signs)
    (b : List Char) : d.references (a ++ sign :: b) = d.references a ++ d.references b := by
  have quote : sign ≠ '"' := by
    rintro rfl
    exact absurd hsign (by decide)
  rw [references, Text.Chars.outside_append ha, Text.Chars.outside, if_neg quote,
    List.splitOnP_append_cons _ _ (by simp [d.isPathChar_eq_false (Or.inr hsign)]),
    List.filter_append, references, references, Text.Chars.outside_eq_self ha]

example : references .python "wx.Size(10, -1)|self.m_id".toList
    = ["wx.Size".toList, "10".toList, "1".toList, "self.m_id".toList] := by
  decide +kernel

/-- A path refers to nothing but itself. -/
theorem references_path {path : List Char} (chars : ∀ c ∈ path, d.isPathChar c = true)
    (inhabited : path ≠ []) : d.references path = [path] := by
  rw [references, Text.Chars.outside_eq_self (notMem_of_isPathChar chars),
    List.splitOnP_eq_singleton fun c hc => by simp [chars c hc]]
  simpa using inhabited

/-- What is written up to the end of a path is referred to, whatever follows. -/
theorem mem_references_append {path rest : List Char}
    (chars : ∀ c ∈ path, d.isPathChar c = true) (inhabited : path ≠ [])
    (stop : ∀ c ∈ rest.head?, d.isPathChar c = false) : path ∈ d.references (path ++ rest) := by
  have alone : path ∈ d.references path := by
    rw [references_path chars inhabited]
    exact List.mem_singleton_self path
  cases rest with
  | nil => rwa [List.append_nil]
  | cons sign rest =>
    rw [references, Text.Chars.outside_append (notMem_of_isPathChar chars), Text.Chars.outside,
      List.splitOnP_append_cons _ _ (by simp [stop sign rfl]), List.filter_append]
    rw [references, Text.Chars.outside_eq_self (notMem_of_isPathChar chars)] at alone
    exact List.mem_append_left _ alone

/-- A path with another first letter than those of the names for the form. -/
theorem isOwn_eq_false {path : List Char} (first : ∀ c ∈ path.head?, c ∉ ['t', 's', '$', '@']) :
    d.isOwn path = false := by
  cases path with
  | nil => cases d <;> decide
  | cons c rest =>
    have hc := first c rfl
    simp only [List.mem_cons, List.not_mem_nil, or_false, not_or] at hc
    by_cases name : isNameChar c = true
    · cases d <;> simp [isOwn, List.takeWhile_cons_of_pos name, selfRef, hc]
    · cases d <;> simp [isOwn, List.takeWhile_cons_of_neg name, selfRef, hc]

/-! ## Code without quotes -/

/-- Code without literals, all of whose paths are known. -/
structure Unquoted (d : Dialect) (ids : List String) (code : List Char) : Prop where
  inScope : d.InScope ids code
  notMem : '"' ∉ code

theorem unquoted_nil : d.Unquoted ids [] :=
  ⟨fun path h => by simp [references, Text.Chars.outside] at h, List.not_mem_nil⟩

theorem unquoted_of_path {path : List Char} (chars : ∀ c ∈ path, d.isPathChar c = true)
    (known : d.isKnown ids path = true) : d.Unquoted ids path := by
  refine ⟨?_, notMem_of_isPathChar chars⟩
  by_cases empty : path = []
  · rw [empty]
    exact unquoted_nil.inScope
  · intro other hother
    rw [references_path chars empty, List.mem_singleton] at hother
    rw [hother]
    exact known

theorem Unquoted.append_cons {a b : List Char} (ha : d.Unquoted ids a) (hb : d.Unquoted ids b)
    {sign : Char} (hsign : sign ∈ signs) : d.Unquoted ids (a ++ sign :: b) := by
  have quote : '"' ≠ sign := by
    rintro rfl
    exact absurd hsign (by decide)
  refine ⟨fun path hpath => ?_, fun h => ?_⟩
  · rw [references_append_cons ha.notMem hsign] at hpath
    rcases List.mem_append.1 hpath with hpath | hpath
    · exact ha.inScope path hpath
    · exact hb.inScope path hpath
  · rcases List.mem_append.1 h with h | h
    · exact ha.notMem h
    · rcases List.mem_cons.1 h with h | h
      · exact quote h
      · exact hb.notMem h

theorem unquoted_nullLiteral : d.Unquoted ids d.nullLiteral.toList := by
  have chars : d.nullLiteral.toList.all d.isPathChar = true := by cases d <;> decide
  have own : d.isOwn d.nullLiteral.toList = false := by cases d <;> decide
  refine unquoted_of_path (List.all_eq_true.1 chars) ?_
  rw [isKnown, own, beq_self_eq_true]
  simp

/-! ### Numbers -/

theorem unquoted_digits {digits : List Char} (h : ∀ c ∈ digits, c.isDigit = true) :
    d.Unquoted ids digits := by
  have first : ∀ c ∈ digits.head?, c ∉ ['t', 's', '$', '@'] := by
    intro c hc mem
    have digit := h c (List.mem_of_mem_head? hc)
    have letters : ['t', 's', '$', '@'].all (fun c => !c.isDigit) = true := by decide
    have letter : (!c.isDigit) = true := List.all_eq_true.1 letters c mem
    rw [digit] at letter
    cases letter
  refine unquoted_of_path
    (fun c hc => isPathChar_of_isWordChar (Text.isWordChar_of_isDigit (h c hc))) ?_
  rw [isKnown, isOwn_eq_false first, List.all_eq_true.2 h]
  rfl

theorem unquoted_numeral {s : List Char} (h : Text.IsNumeral s) : d.Unquoted ids s := by
  have number : d.Unquoted ids (Text.unsigned s) := unquoted_digits h.digits
  rcases Text.unsigned_cases s with bare | ⟨sign, hsign, signed⟩
  · rwa [bare]
  · rw [signed]
    refine unquoted_nil.append_cons number ?_
    have listed : ['+', '-'] ⊆ signs := by decide
    exact listed hsign

theorem unquoted_toString (n : Int) : d.Unquoted ids (toString n).toList := by
  have digits (n : Nat) : d.Unquoted ids (Nat.toDigits 10 n) :=
    unquoted_digits fun c hc => Text.Numeral.isDigit_of_mem_toDigits hc
  cases n with
  | ofNat n =>
    rw [Text.Numeral.toList_toString_ofNat]
    exact digits n
  | negSucc n =>
    rw [Text.Numeral.toList_toString_negSucc]
    exact unquoted_nil.append_cons (digits (n + 1)) (by decide)

/-! ### Names of the toolkit -/

theorem head?_of_isToolkitPath {path : List Char} (h : d.isToolkitPath path = true) :
    path.head? = some 'w' ∨ path.head? = some 'W' := by
  have start {front : List Char} (h : front.isPrefixOf path = true) (c : Char)
      (hc : front.head? = some c) : path.head? = some c := by
    obtain ⟨rest, rfl⟩ := List.isPrefixOf_iff_prefix.1 h
    rw [List.head?_append, hc]
    rfl
  cases d with
  | cpp | perl =>
    have first := head?_of_isToolkitName h
    rw [String.toList_ofList] at first
    exact Or.inl first
  | python => exact Or.inl (start h 'w' rfl)
  | ruby => exact Or.inr (start h 'W' rfl)

theorem unquoted_toolkit {path : List Char} (chars : ∀ c ∈ path, d.isPathChar c = true)
    (toolkit : d.isToolkitPath path = true) : d.Unquoted ids path := by
  have own : d.isOwn path = false := by
    refine isOwn_eq_false fun c hc => ?_
    rcases head?_of_isToolkitPath toolkit with first | first
    all_goals
      rw [first] at hc
      obtain rfl := Option.some.inj hc
      decide
  refine unquoted_of_path chars ?_
  rw [isKnown, own, toolkit]
  simp

/-- A name in a module of the toolkit. -/
theorem unquoted_modulePath (moduled : d = .python ∨ d = .ruby) (library : Library) {bare : String}
    (word : Text.IsWord bare.toList) : d.Unquoted ids (d.modulePath library ++ bare).toList := by
  rw [String.toList_append]
  have chars : (d.modulePath library).toList.all d.isPathChar = true := by
    cases d <;> cases library <;> decide
  refine unquoted_toolkit (fun c hc => ?_) ?_
  · rcases List.mem_append.1 hc with hc | hc
    · exact List.all_eq_true.1 chars c hc
    · exact isPathChar_of_isWordChar (word c hc)
  · have start {front : List Char} (h : front.isPrefixOf (d.modulePath library).toList = true) :
        front.isPrefixOf ((d.modulePath library).toList ++ bare.toList) = true :=
      List.isPrefixOf_iff_prefix.2
        ((List.isPrefixOf_iff_prefix.1 h).trans (List.prefix_append _ _))
    rcases moduled with rfl | rfl
    · exact start (by cases library <;> decide)
    · exact start (by cases library <;> decide)

/-- **A constant is known**, however the language spells it. -/
theorem unquoted_constant {name : String} (h : IsConstant name) :
    d.Unquoted ids (d.constant name).toList := by
  cases d with
  | cpp | perl =>
    refine unquoted_toolkit (fun c hc => isPathChar_of_isWordChar (h.word c hc)) ?_
    simpa [isToolkitPath, constant] using h.toolkit
  | python =>
    rw [constant, if_pos h.toolkit]
    exact unquoted_modulePath (Or.inl rfl) _ h.bare
  | ruby =>
    rw [constant, if_pos h.toolkit]
    refine unquoted_modulePath (Or.inr rfl) _ ?_
    split
    · exact Text.isWord_upperSnakeCase h.bare
    · exact h.bare

/-! ### Flags -/

/-- What is no name of the toolkit is spelled as it stands. -/
theorem constant_of_not_isToolkitName (d : Dialect) {name : String}
    (h : isToolkitName name = false) : d.constant name = name := by
  cases d <;> simp [constant, h]

/-- Constants and numbers stand for themselves, or for what the language calls them. -/
theorem unquoted_flag {part : String} (h : IsFlag part) :
    d.Unquoted ids
      (if (Text.Numeral.int64? part).isSome then part else d.constant part).toList := by
  rcases h with constant | numeral
  · rw [constant.int64?_eq_none]
    exact unquoted_constant constant
  · rw [d.constant_of_not_isToolkitName numeral.not_isToolkitName, ite_self]
    exact unquoted_numeral numeral

/-- **Constants and numbers with bars between are known.** -/
theorem unquoted_constants {value : String} (h : IsStyle value) :
    d.Unquoted ids (d.constants value).toList := by
  refine Text.join_induction unquoted_nil ?_ fun a b ha hb => ?_
  · intro text htext
    obtain ⟨part, hpart, rfl⟩ := List.mem_map.1 htext
    exact unquoted_flag (h part hpart)
  · have bar : a ++ d.constantSeparator.toList ++ b = a ++ '|' :: b := by simp [constantSeparator]
    rw [bar]
    exact ha.append_cons hb (by decide)

/-! ### Sizes -/

/-- The class in a call with two numbers, or its constructor. -/
theorem unquoted_call {callee : String} (h : d.Unquoted ids callee.toList) (a b : Int) :
    d.Unquoted ids
      (callee ++ "(" ++ (toString a ++ ", " ++ toString b) ++ ")").toList := by
  have closed : d.Unquoted ids ((toString b).toList ++ [')']) :=
    (unquoted_toString b).append_cons unquoted_nil (by decide)
  have second : d.Unquoted ids ([] ++ ' ' :: ((toString b).toList ++ [')'])) :=
    unquoted_nil.append_cons closed (by decide)
  have both : d.Unquoted ids
      ((toString a).toList ++ ',' :: ([] ++ ' ' :: ((toString b).toList ++ [')']))) :=
    (unquoted_toString a).append_cons second (by decide)
  have call : d.Unquoted ids (callee.toList ++ '('
      :: ((toString a).toList ++ ',' :: ([] ++ ' ' :: ((toString b).toList ++ [')'])))) :=
    h.append_cons both (by decide)
  simpa using call

theorem unquoted_size (signature : d ≠ .perl) (width height : Int) :
    d.Unquoted ids (d.expr (.size width height)).toList := by
  have named (s : String) (chars : s.toList.all d.isPathChar = true)
      (toolkit : d.isToolkitPath s.toList = true) : d.Unquoted ids s.toList :=
    unquoted_toolkit (List.all_eq_true.1 chars) toolkit
  rw [expr]
  cases d with
  | cpp => exact unquoted_call (named "wxSize" (by decide) (by decide)) width height
  | python =>
    have token : classToken .python "wxSize" .core = "wx.Size" := by decide
    rw [newValue, newObject, token]
    exact unquoted_call (named "wx.Size" (by decide) (by decide)) width height
  | ruby =>
    have token : classToken .ruby "wxSize" .core = "Wx::Size" := by decide
    have given : toString width ++ ", " ++ toString height ≠ "" := by simp
    have new : "Wx::Size" ++ ".new(" = "Wx::Size.new" ++ "(" := rfl
    rw [newValue, newObject, token, if_neg given, new]
    exact unquoted_call (named "Wx::Size.new" (by decide) (by decide)) width height
  | perl => exact absurd rfl signature

/-! ## Literals -/

theorem references_quoted (d : Dialect) (s : String) : d.references (d.quoted s).toList = [] := by
  have left := Text.Chars.pastLiteral_of_readQuoted?
    (Text.Chars.readQuoted?_escape d.escaped_of_mem_interpolation s.toList [])
  have quote : (!d.isPathChar '"') = true := by
    rw [d.isPathChar_eq_false (Or.inl rfl)]
    rfl
  rw [toList_quoted, List.cons_append, references, Text.Chars.outside, if_pos rfl, left,
    Text.Chars.outside, List.splitOnP_cons_eq_if_modifyHead, if_pos quote]
  rfl

example : references .ruby (quoted .ruby "a \"self\" #\x7bself\x7d").toList = [] := by
  decide +kernel

/-- **A literal refers to nothing.** The name for the empty text in C++ is the toolkit's. -/
theorem inScope_textLiteral (d : Dialect) (ids : List String) (s : String) :
    d.InScope ids (d.textLiteral s).toList := by
  have quoted : d.InScope ids (d.quoted s).toList := by
    intro path h
    rw [references_quoted] at h
    cases h
  unfold textLiteral
  cases d with
  | cpp =>
    dsimp only
    split
    · have empty : IsConstant "wxEmptyString" := by decide
      exact (@unquoted_constant .cpp ids _ empty).inScope
    · exact quoted
  | python | ruby | perl => exact quoted

end Dialect

end FormDesign
